import LessonScript.Proofs.Body.Chunks
import LessonScript.Command.Builtin

/-!
# The elements of a body

Every element of every scene was read from prose, decoded from a block, or made for the title. So
what holds of all of these holds of all elements of a body.
-/

namespace LessonScript

open Text (Line)

namespace BlockContent

/-- The lines of a decoded block that are read again as prose. -/
def nestedLines : BlockContent → List Line
  | .element _ => []
  | .container _ lines | .scene _ lines => lines

end BlockContent

/-- Something that holds of all elements of all scenes. -/
def EveryElement (P : Element → Prop) (scenes : List Scene) : Prop :=
  ∀ scene ∈ scenes, ∀ element ∈ scene.elements, P element

/-- Something that holds of whatever element a command set gives rise to. -/
structure CommandSet.Yields (commands : CommandSet) (metadata : Metadata) (P : Element → Prop) :
    Prop where
  title : P (titleElement metadata)
  prose : ∀ lines, ∀ element ∈ commands.proseElements lines, P element
  block : ∀ command ∈ commands.block, ∀ lines modifier,
    let added := Chunk.contribution commands metadata (command.decode lines modifier)
    EveryElement P added.1.toList ∧ ∀ element ∈ added.2, P element

/-- Something that holds of whatever element a command set gives rise to when it reads some lines:
the header of a block is one of them, and what stands below it is among them. -/
structure CommandSet.YieldsFrom (commands : CommandSet) (metadata : Metadata) (lines : List Line)
    (P : Element → Prop) : Prop where
  title : P (titleElement metadata)
  prose : ∀ content, ∀ element ∈ commands.proseElements content, P element
  block : ∀ command ∈ commands.block, ∀ header ∈ lines, ∀ modifier,
    command.header header = some modifier → ∀ content ⊆ lines,
      let added := Chunk.contribution commands metadata (command.decode content modifier)
      EveryElement P added.1.toList ∧ ∀ element ∈ added.2, P element

variable {P : Element → Prop}

lemma EveryElement.append {scenes more : List Scene} :
    EveryElement P (scenes ++ more) ↔ EveryElement P scenes ∧ EveryElement P more :=
  List.forall_mem_append

/-- What holds of all scenes holds of them after an extension, if it does of one extended scene. -/
lemma Chunk.forall_mem_extend {Q : Scene → Prop} {scenes : List Scene} {elements : List Element}
    (h : ∀ scene ∈ scenes, Q scene)
    (hextended : ∀ scene, Q scene → Q { scene with elements := scene.elements ++ elements }) :
    ∀ scene ∈ extend scenes elements, Q scene := by
  rcases List.eq_nil_or_concat scenes with rfl | ⟨scenes, last, rfl⟩
  · exact h
  · rw [List.concat_eq_append] at h ⊢
    obtain ⟨hscenes, hlast⟩ := List.forall_mem_append.1 h
    rw [extend, List.modifyLast_concat]
    refine List.forall_mem_append.2 ⟨hscenes, List.forall_mem_singleton.2 ?_⟩
    exact hextended last (List.forall_mem_singleton.1 hlast)

lemma EveryElement.extend {scenes : List Scene} (h : EveryElement P scenes)
    {elements : List Element} (helements : ∀ element ∈ elements, P element) :
    EveryElement P (Chunk.extend scenes elements) :=
  Chunk.forall_mem_extend h fun _ hscene => List.forall_mem_append.2 ⟨hscene, helements⟩

/-- An element alone, which opens no scene. -/
lemma EveryElement.single {element : Element} (h : P element) :
    EveryElement P (none : Option Scene).toList ∧ ∀ e ∈ [element], P e :=
  ⟨nofun, List.forall_mem_singleton.2 h⟩

variable {commands : CommandSet} {metadata : Metadata}

/-- The header of a block belongs to one of the commands. -/
lemma Heading.of_block {line : Line} {command : BlockCommand} {modifier : Option (List Char)}
    (h : ofLine? commands line = some (.block command modifier)) :
    command ∈ commands.block ∧ command.header line = some modifier := by
  rw [ofLine?] at h
  split at h
  · cases h
  · split at h
    · cases h
    · obtain ⟨found, hfound, h⟩ := Option.bind_eq_some_iff.1 h
      obtain ⟨_, hheader, h⟩ := Option.bind_eq_some_iff.1 h
      cases h
      exact ⟨List.mem_of_find?_eq_some hfound, hheader⟩

/-- The name of a scene marker. -/
def Heading.sceneName? : Heading → Option (List Char)
  | .scene name => some name
  | .title | .block .. => none

lemma Heading.sceneName?_of_ofLine? {line : Line} {heading : Heading}
    (h : ofLine? commands line = some heading) : heading.sceneName? = Builtin.sceneName line := by
  rw [ofLine?_eq] at h
  split at h
  · rename_i htitle
    obtain rfl := Option.some.inj h
    rw [htitle]
    decide
  · cases hname : Builtin.sceneName line with
    | some name =>
      rw [hname] at h
      obtain rfl := Option.some.inj h
      rfl
    | none =>
      rw [hname] at h
      obtain ⟨_, -, rfl⟩ := Option.map_eq_some_iff.1 h
      rfl

lemma Heading.of_scene {line : Line} {name : List Char}
    (h : ofLine? commands line = some (.scene name)) : Builtin.sceneName line = some name :=
  (sceneName?_of_ofLine? h).symm

/-- A chunk as it is cut from lines: one of them is its heading, and its content is among them. -/
structure Chunk.CutFrom (commands : CommandSet) (lines : List Line) (chunk : Chunk) : Prop where
  heading : ∃ line ∈ lines, Heading.ofLine? commands line = some chunk.heading
  content : chunk.content ⊆ lines

lemma Chunk.CutFrom.cons {lines : List Line} {chunk : Chunk} (h : chunk.CutFrom commands lines)
    (line : Line) : chunk.CutFrom commands (line :: lines) := by
  obtain ⟨⟨found, hfound, hl⟩, hcontent⟩ := h
  exact ⟨⟨found, List.mem_cons_of_mem line hfound, hl⟩, List.subset_cons_of_subset line hcontent⟩

/-- All that lines are cut into comes from these lines. -/
lemma Chunk.cutFrom_cut (commands : CommandSet) (lines : List Line) :
    (cut commands lines).1 ⊆ lines ∧
      ∀ chunk ∈ (cut commands lines).2, chunk.CutFrom commands lines := by
  induction lines with
  | nil => exact ⟨List.nil_subset _, nofun⟩
  | cons line rest ih =>
    obtain ⟨hcontent, hchunks⟩ := ih
    cases hl : Heading.ofLine? commands line with
    | none =>
      rw [cut_content hl]
      exact ⟨List.cons_subset_cons line hcontent, fun chunk hc => (hchunks chunk hc).cons line⟩
    | some heading =>
      rw [cut_heading hl]
      refine ⟨List.nil_subset _, List.forall_mem_cons.2 ⟨⟨?_, ?_⟩, ?_⟩⟩
      · exact ⟨line, List.mem_cons_self, hl⟩
      · exact List.subset_cons_of_subset line hcontent
      · exact fun chunk hc => (hchunks chunk hc).cons line

/-- What holds before the first heading, and goes on to hold whenever one more chunk is read, holds
of the scenes of a body. -/
lemma Walk.scenesOf_induction {lines : List Line} {motive : List Scene → Prop}
    (start : motive (Chunk.extend [] (commands.proseElements (Chunk.cut commands lines).1)))
    (read : ∀ scenes (chunk : Chunk), chunk.CutFrom commands lines →
      motive scenes → motive (Chunk.read commands metadata scenes chunk)) :
    motive (Walk.scenesOf commands metadata lines) := by
  have hread : ∀ chunks ⊆ (Chunk.cut commands lines).2, ∀ scenes, motive scenes →
      motive (chunks.foldl (Chunk.read commands metadata) scenes) := by
    intro chunks hsub
    induction chunks with
    | nil => exact fun _ hs => hs
    | cons chunk rest ih =>
      intro scenes hs
      obtain ⟨hc, hrest⟩ := List.cons_subset.1 hsub
      exact ih hrest _ (read scenes chunk ((Chunk.cutFrom_cut commands lines).2 chunk hc) hs)
  rw [Walk.scenesOf_eq]
  exact hread _ (List.Subset.refl _) _ start

namespace CommandSet.YieldsFrom

variable {lines : List Line} (h : commands.YieldsFrom metadata lines P)

include h

lemma contributes (first : Bool) {chunk : Chunk} (hchunk : chunk.CutFrom commands lines) :
    let added := chunk.contributes commands metadata first
    EveryElement P added.1.toList ∧ ∀ element ∈ added.2, P element := by
  obtain ⟨heading, content⟩ := chunk
  obtain ⟨⟨line, hline, hl⟩, hcontent⟩ := hchunk
  intro added
  cases heading with
  | title =>
    refine ⟨?_, List.forall_mem_cons.2 ⟨h.title, h.prose content⟩⟩
    cases first <;> simp [added, Chunk.contributes, EveryElement, Scene.titleScene]
  | scene name =>
    refine ⟨?_, h.prose content⟩
    simp [added, Chunk.contributes, EveryElement, Builtin.sceneOf, Scene.named]
  | block command modifier =>
    obtain ⟨hc, hheader⟩ := Heading.of_block hl
    simp only [added, Chunk.contributes]
    split
    · simp [EveryElement]
    · exact h.block command hc line hline modifier hheader content hcontent

lemma scenesOf : EveryElement P (Walk.scenesOf commands metadata lines) := by
  apply Walk.scenesOf_induction
  · exact EveryElement.extend (by simp [EveryElement]) (h.prose _)
  · intro scenes chunk hchunk hscenes
    obtain ⟨hopened, helements⟩ := h.contributes scenes.isEmpty hchunk
    exact (EveryElement.append.2 ⟨hscenes, hopened⟩).extend helements

end CommandSet.YieldsFrom

lemma CommandSet.Yields.scenesOf (h : commands.Yields metadata P) (lines : List Line) :
    EveryElement P (Walk.scenesOf commands metadata lines) := by
  refine YieldsFrom.scenesOf ⟨h.title, h.prose, ?_⟩
  exact fun command hc _ _ modifier _ content _ => h.block command hc content modifier

end LessonScript
