import LessonScript.Body
import LessonScript.Proofs.Text.Blank
import LessonScript.Proofs.Text.Lines
import Mathlib.Data.List.ModifyLast
import Mathlib.Tactic.Common

/-!
# The chunks of a body

A body can be cut into chunks before anything in it is read: the content lines up to the first
heading, and then each heading with the content lines below it. The walk over the lines gives the
scenes that one gets by reading the chunks one after the other.
-/

namespace LessonScript

open Text (Line)

inductive Heading where
  | title
  | scene (name : List Char)
  | block (command : BlockCommand) (modifier : Option (List Char))

namespace Heading

variable (commands : CommandSet)

/-- The heading that a line is. The two markers come before every registered header, and of the
block commands that accept the line the first one has it. -/
def ofLine? (line : Line) : Option Heading :=
  if line = "# TITLE".toList then some .title
  else match Builtin.sceneName line with
    | some name => some (.scene name)
    | none => do
      let command ← commands.block.find? fun command => (command.header line).isSome
      let modifier ← command.header line
      return .block command modifier

end Heading

structure Chunk where
  heading : Heading
  content : List Line

namespace Chunk

variable (commands : CommandSet) (metadata : Metadata)

/-- The content lines before the first heading, and the chunks from there on. -/
def cut : List Line → List Line × List Chunk
  | [] => ([], [])
  | line :: rest =>
    match Heading.ofLine? commands line with
    | some heading => ([], ⟨heading, (cut rest).1⟩ :: (cut rest).2)
    | none => (line :: (cut rest).1, (cut rest).2)

/-- What a decoded block contributes: the scene that it opens, if any, and elements. -/
def contribution : BlockContent → Option Scene × List Element
  | .element (.title ..) => (none, [titleElement metadata])
  | .element element => (none, [element])
  | .container element lines => (none, [element.withChildren (commands.proseElements lines)])
  | .scene scene lines => (some scene, commands.proseElements lines)

/-- What a chunk contributes; `first` says that no scene is open above it. -/
def contributes (first : Bool) (chunk : Chunk) : Option Scene × List Element :=
  match chunk.heading with
  | .title => (if first then some .titleScene else none,
      titleElement metadata :: commands.proseElements chunk.content)
  | .scene name => (some (Builtin.sceneOf name), commands.proseElements chunk.content)
  | .block command modifier =>
    if chunk.content = [] then (none, [])
    else contribution commands metadata (command.decode chunk.content modifier)

/-- The scenes with elements added to the last one. -/
def extend (scenes : List Scene) (elements : List Element) : List Scene :=
  scenes.modifyLast fun scene => { scene with elements := scene.elements ++ elements }

/-- The scenes after one more chunk: the scene that it opens comes last, and its elements go into
the last scene. -/
def read (scenes : List Scene) (chunk : Chunk) : List Scene :=
  let added := chunk.contributes commands metadata scenes.isEmpty
  extend (scenes ++ added.1.toList) added.2

/-- The scenes of lines by way of their chunks. -/
def scenesOf (lines : List Line) : List Scene :=
  let pieces := cut commands lines
  pieces.2.foldl (read commands metadata) (extend [] (commands.proseElements pieces.1))

end Chunk

lemma appendToLast_eq_extend (scenes : List Scene) (elements : List Element) :
    appendToLast scenes elements = Chunk.extend scenes elements := by
  rcases List.eq_nil_or_concat scenes with rfl | ⟨scenes, last, rfl⟩
  · rfl
  · rw [List.concat_eq_append, appendToLast_append_singleton, Chunk.extend,
      List.modifyLast_concat]

@[simp] lemma Chunk.extend_nil (scenes : List Scene) : extend scenes [] = scenes := by
  rw [← appendToLast_eq_extend, appendToLast_nil]

lemma Chunk.extend_extend (scenes : List Scene) (a b : List Element) :
    extend (extend scenes a) b = extend scenes (a ++ b) := by
  simp only [← appendToLast_eq_extend, appendToLast_appendToLast]

lemma CommandSet.blockAt?_eq (commands : CommandSet) (line : Line) :
    commands.blockAt? line = do
      let command ← commands.block.find? fun command => (command.header line).isSome
      let modifier ← command.header line
      return (command, modifier) := by
  unfold blockAt?
  induction commands.block with
  | nil => rfl
  | cons command rest ih =>
    rw [List.findSome?_cons, List.find?_cons, ih]
    cases h : command.header line <;> simp [h]

lemma Heading.ofLine?_eq (commands : CommandSet) (line : Line) :
    ofLine? commands line =
      if line = Builtin.titleMarker then some .title
      else match Builtin.sceneName line with
        | some name => some (.scene name)
        | none => (commands.blockAt? line).map fun found => .block found.1 found.2 := by
  have hb : (do
      let command ← commands.block.find? fun command => (command.header line).isSome
      let modifier ← command.header line
      return block command modifier) =
        (commands.blockAt? line).map fun found => block found.1 found.2 := by
    rw [CommandSet.blockAt?_eq]
    cases commands.block.find? fun command => (command.header line).isSome with
    | none => rfl
    | some command =>
      simp only [Option.bind_eq_bind, Option.bind_some]
      cases command.header line <;> rfl
  unfold ofLine? Builtin.titleMarker
  rw [hb]

lemma Heading.ofLine?_eq_none {commands : CommandSet} {line : Line} :
    ofLine? commands line = none ↔
      line ≠ Builtin.titleMarker ∧ Builtin.sceneName line = none ∧
        commands.blockAt? line = none := by
  rw [ofLine?_eq]
  split
  · simp_all
  · split <;> simp_all

namespace CommandSet

variable (commands : CommandSet)

lemma proseElements_eq_map (lines : List Line) :
    commands.proseElements lines =
      (Text.solidLines lines).map fun line => commands.proseElement (Text.trim line) := by
  rw [proseElements, Text.filter_map_trim, List.map_map]
  rfl

lemma proseElements_congr_solid {a b : List Line} (h : Text.solidLines a = Text.solidLines b) :
    commands.proseElements a = commands.proseElements b := by
  rw [proseElements_eq_map, proseElements_eq_map, h]

lemma proseElements_cons_of_blank {line : Line} (hblank : Text.allBlank line = true)
    (lines : List Line) :
    commands.proseElements (line :: lines) = commands.proseElements lines :=
  commands.proseElements_congr_solid (Text.solidLines_cons_of_blank hblank lines)

lemma proseElements_cons_of_solid {line : Line} (hsolid : Text.allBlank line = false)
    (lines : List Line) :
    commands.proseElements (line :: lines) =
      commands.proseElement (Text.trim line) :: commands.proseElements lines := by
  rw [proseElements_eq_map, proseElements_eq_map, Text.solidLines_cons_of_solid hsolid,
    List.map_cons]

end CommandSet

namespace Chunk

variable {commands : CommandSet} {line : Line}

lemma cut_content (hl : Heading.ofLine? commands line = none) (rest : List Line) :
    cut commands (line :: rest) = (line :: (cut commands rest).1, (cut commands rest).2) := by
  rw [cut, hl]

lemma cut_heading {heading : Heading} (hl : Heading.ofLine? commands line = some heading)
    (rest : List Line) :
    cut commands (line :: rest) =
      ([], ⟨heading, (cut commands rest).1⟩ :: (cut commands rest).2) := by
  rw [cut, hl]

end Chunk

namespace Walk

variable (commands : CommandSet) (metadata : Metadata)

/-- A walk that has come upon more content lines, all of which are kept. -/
def gather (w : Walk) (lines : List Line) : Walk :=
  match w.block with
  | some block => { w with block := some { block with lines := block.lines ++ lines } }
  | none => { w with prose := w.prose ++ lines }

/-- A flushed walk that has come upon a heading. -/
def enter (w : Walk) : Heading → Walk
  | .title =>
    let scenes := if w.scenes.isEmpty then [Scene.titleScene] else w.scenes
    { w with scenes := appendToLast scenes [titleElement metadata] }
  | .scene name => { w with scenes := w.scenes ++ [Builtin.sceneOf name] }
  | .block command modifier => { w with block := some ⟨command, modifier, []⟩ }

lemma gather_nil (w : Walk) : w.gather [] = w := by
  obtain ⟨scenes, block, prose⟩ := w
  cases block <;> simp [gather]

lemma flush_eq (w : Walk) :
    w.flush commands metadata = ⟨(w.flush commands metadata).scenes, none, []⟩ := by
  obtain ⟨scenes, block, prose⟩ := w
  cases block <;> rfl

lemma scenes_flush_prose (scenes : List Scene) (prose : List Line) :
    (flush commands metadata ⟨scenes, none, prose⟩).scenes =
      appendToLast scenes (commands.proseElements prose) := rfl

lemma scenes_flush_block (scenes : List Scene) (block : OpenBlock) :
    (flush commands metadata ⟨scenes, some block, []⟩).scenes =
      if block.lines = [] then scenes
      else addContent commands metadata scenes
        (block.command.decode block.lines block.modifier) := by
  simp [flush, flushProse, flushBlock, CommandSet.proseElements]

lemma addContent_eq (scenes : List Scene) (content : BlockContent) :
    addContent commands metadata scenes content =
      Chunk.extend (scenes ++ (Chunk.contribution commands metadata content).1.toList)
        (Chunk.contribution commands metadata content).2 := by
  cases content with
  | element element =>
    cases element <;> simp [addContent, Chunk.contribution, appendToLast_eq_extend]
  | container element lines => simp [addContent, Chunk.contribution, appendToLast_eq_extend]
  | scene scene lines => simp [addContent, Chunk.contribution, appendToLast_eq_extend]

/-- A content line is kept, unless it is blank and stands where no prose has begun. -/
lemma step_of_content {line : Line} (hl : Heading.ofLine? commands line = none) (w : Walk) :
    w.step commands metadata line = w.gather [line] ∨
      w.step commands metadata line = w ∧ w.block = none ∧ w.prose = [] ∧
        Text.allBlank line = true := by
  obtain ⟨ht, hs, hb⟩ := Heading.ofLine?_eq_none.1 hl
  obtain ⟨scenes, block, prose⟩ := w
  rw [step, if_neg ht, hs, hb]
  cases block with
  | some block => exact .inl rfl
  | none =>
    by_cases hp : prose = [] ∧ Text.allBlank line = true
    · right
      simp [hp.1, hp.2]
    · left
      simp [gather, hp]

lemma step_of_heading {line : Line} {heading : Heading}
    (hl : Heading.ofLine? commands line = some heading) (w : Walk) :
    w.step commands metadata line = (w.flush commands metadata).enter metadata heading := by
  rw [Heading.ofLine?_eq] at hl
  rw [step]
  by_cases ht : line = Builtin.titleMarker
  · rw [if_pos ht] at hl ⊢
    cases hl
    rfl
  · rw [if_neg ht] at hl ⊢
    cases hs : Builtin.sceneName line with
    | some name =>
      rw [hs] at hl
      cases hl
      rfl
    | none =>
      rw [hs] at hl
      obtain ⟨⟨command, modifier⟩, hb, rfl⟩ := Option.map_eq_some_iff.1 hl
      rw [hb]
      rfl

lemma gather_gather (w : Walk) (lines more : List Line) :
    (w.gather lines).gather more = w.gather (lines ++ more) := by
  obtain ⟨scenes, block, prose⟩ := w
  cases block <;> simp [gather]

lemma scenes_flush_step_content {line : Line} (hl : Heading.ofLine? commands line = none)
    (w : Walk) (content : List Line) :
    ((w.step commands metadata line).gather content |>.flush commands metadata).scenes =
      (w.gather (line :: content) |>.flush commands metadata).scenes := by
  rcases step_of_content commands metadata hl w with hs | ⟨hs, hb, hp, hblank⟩
  · rw [hs, gather_gather, List.singleton_append]
  · -- The walk leaves the line out and the chunk keeps it, and as prose it comes to nothing.
    obtain ⟨scenes, block, prose⟩ := w
    obtain rfl : block = none := hb
    obtain rfl : prose = [] := hp
    rw [hs]
    simp only [gather, List.nil_append, scenes_flush_prose,
      commands.proseElements_cons_of_blank hblank]

lemma scenes_flush_enter (scenes : List Scene) (heading : Heading) (content : List Line) :
    ((enter metadata ⟨scenes, none, []⟩ heading).gather content |>.flush commands metadata).scenes =
      Chunk.read commands metadata scenes ⟨heading, content⟩ := by
  cases heading with
  | title =>
    have hopen : (if scenes.isEmpty then [Scene.titleScene] else scenes) =
        scenes ++ (if scenes.isEmpty then some Scene.titleScene else none).toList := by
      cases scenes <;> simp
    simp only [enter, gather, List.nil_append, scenes_flush_prose, appendToLast_eq_extend, hopen,
      Chunk.extend_extend]
    rfl
  | scene name =>
    simp only [enter, gather, List.nil_append, scenes_flush_prose, appendToLast_eq_extend]
    rfl
  | block command modifier =>
    simp only [enter, gather, List.nil_append, scenes_flush_block, addContent_eq, Chunk.read,
      Chunk.contributes]
    split
    · simp
    · rfl

lemma scenes_flush_step_heading {line : Line} {heading : Heading}
    (hl : Heading.ofLine? commands line = some heading) (w : Walk) (content : List Line) :
    ((w.step commands metadata line).gather content |>.flush commands metadata).scenes =
      Chunk.read commands metadata (w.flush commands metadata).scenes ⟨heading, content⟩ := by
  rw [step_of_heading commands metadata hl, flush_eq commands metadata w, scenes_flush_enter]

/-- What is pending and what is to come are read as chunks. -/
lemma scenes_flush_foldl (w : Walk) (lines : List Line) :
    (lines.foldl (step commands metadata) w |>.flush commands metadata).scenes =
      (Chunk.cut commands lines).2.foldl (Chunk.read commands metadata)
        (w.gather (Chunk.cut commands lines).1 |>.flush commands metadata).scenes := by
  -- A content line only changes what is pending, a heading turns all of it into scenes: so the
  -- walk so far stays general, and what it has pending is joined with the content ahead.
  induction lines generalizing w with
  | nil =>
    rw [Chunk.cut, gather_nil]
    rfl
  | cons line rest ih =>
    rw [List.foldl_cons, ih]
    cases hl : Heading.ofLine? commands line with
    | none => rw [Chunk.cut_content hl, scenes_flush_step_content commands metadata hl]
    | some heading =>
      rw [Chunk.cut_heading hl, scenes_flush_step_heading commands metadata hl, List.foldl_cons,
        gather_nil]

lemma scenesOf_eq (lines : List Line) :
    scenesOf commands metadata lines = Chunk.scenesOf commands metadata lines := by
  rw [scenesOf, scenes_flush_foldl, Chunk.scenesOf]
  rfl

/-- The walk over a body gives what its chunks give, read one after the other. -/
theorem scenesOf_eq_chunks (registry : Registry) (metadata : Metadata) (body : List Char) :
    scenesOf registry.commandSet metadata (Text.bodyLines body) =
      Chunk.scenesOf registry.commandSet metadata ((body.splitOn '\n').map Text.dropReturn) := by
  rw [scenesOf_eq, Text.bodyLines, Text.splitOn_eq]

end Walk

end LessonScript
