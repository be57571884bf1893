import LessonScript.Proofs.Body.WellFormed
import LessonScript.Proofs.Text.Blank
import Mathlib.Data.List.Basic

/-!
# Names behind markers

A scene marker names its scene, and the header of a focus word names the word, with the text behind
it, without the white space at its ends. Both ask for a name, but any character will do: behind a
marker with white space alone the last character of it is the name, and nothing is left of it when
it is trimmed. So the names of a document are real as long as no such line stands in the script.
-/

namespace LessonScript

open Text (Line)

/-- The name that a line with a marker gives: what stands behind the marker, if anything does. -/
def nameBehind? (marker line : Line) : Option String :=
  (Text.after? marker line).bind fun rest =>
    if rest = [] then none else some (String.ofList (Text.trim rest))

def namesBehind (marker : Line) (lines : List Line) : List String :=
  lines.filterMap (nameBehind? marker)

/-- A marker with white space behind it, one character at least, and nothing else. -/
def NamesNothing (marker line : Line) : Prop :=
  ∃ blank, line = marker ++ blank ∧ blank ≠ [] ∧ Text.allBlank blank = true

section Markers

variable {marker line : Line}

/-- What a marker captures, without the white space at its end, is the text behind the marker
without that at either end. -/
lemma map_nameAfter (h : '\n' ∉ line) :
    (nameAfter marker line).map (fun name => String.ofList (Text.trimEnd name)) =
      nameBehind? marker line := by
  rw [nameAfter, nameBehind?]
  cases hrest : Text.after? marker line with
  | none => rfl
  | some rest =>
    have hfeed : '\n' ∉ rest := fun hm =>
      h (Text.after?_eq_some_iff.1 hrest ▸ List.mem_append_right marker hm)
    simp only [Option.bind_eq_bind, Option.bind_some]
    cases hname : Text.trimStart rest with
    | nil =>
      have hblank := Text.trimStart_eq_nil_iff.1 hname
      cases hlast : rest.getLast? with
      | none => simp [List.getLast?_eq_none_iff.1 hlast]
      | some c =>
        have hc : c ∈ rest := List.mem_of_getLast? hlast
        have hcfeed : c ≠ '\n' := fun he => hfeed (he ▸ hc)
        have hcblank : Text.trimEnd [c] = [] := by
          rw [Text.trimEnd_eq_nil_iff, Text.allBlank, List.all_eq_true]
          exact List.forall_mem_singleton.2 (List.all_eq_true.1 hblank c hc)
        simp [hcfeed, hcblank, List.ne_nil_of_mem hc, Text.trim_eq_nil_iff.2 hblank]
    | cons c name =>
      have hne : rest ≠ [] := by
        rintro rfl
        cases hname
      have hname' : '\n' ∉ c :: name := fun hm =>
        hfeed ((List.dropWhile_sublist _).subset (hname ▸ hm))
      simp only [if_neg hname', if_neg hne, Option.map_some, Text.trim, hname]

lemma isSome_nameAfter_iff (h : '\n' ∉ line) :
    (nameAfter marker line).isSome ↔ ∃ rest, line = marker ++ rest ∧ rest ≠ [] := by
  rw [← Option.isSome_map (f := fun name => String.ofList (Text.trimEnd name)), map_nameAfter h,
    nameBehind?]
  constructor
  · intro hsome
    obtain ⟨name, hname⟩ := Option.isSome_iff_exists.1 hsome
    obtain ⟨rest, hrest, hname⟩ := Option.bind_eq_some_iff.1 hname
    exact ⟨rest, Text.after?_eq_some_iff.1 hrest, by rintro rfl; cases hname⟩
  · rintro ⟨rest, rfl, hne⟩
    rw [Text.after?_append, Option.bind_some, if_neg hne, Option.isSome_some]

lemma trim_of_nameBehind? {name : String} (h : nameBehind? marker line = some name) :
    Text.trim name.toList = name.toList := by
  obtain ⟨rest, -, h⟩ := Option.bind_eq_some_iff.1 h
  split at h
  · cases h
  · obtain rfl := Option.some.inj h
    rw [String.toList_ofList, Text.trim_trim]

lemma nameBehind?_eq_empty_iff : nameBehind? marker line = some "" ↔ NamesNothing marker line := by
  have hempty : ∀ rest, String.ofList (Text.trim rest) = "" ↔ Text.allBlank rest = true := by
    intro rest
    rw [← Text.trim_eq_nil_iff, ← String.toList_inj, String.toList_ofList, String.toList_empty]
  constructor
  · intro h
    obtain ⟨rest, hrest, h⟩ := Option.bind_eq_some_iff.1 h
    split at h
    · cases h
    · rename_i hne
      exact ⟨rest, Text.after?_eq_some_iff.1 hrest, hne, (hempty rest).1 (Option.some.inj h)⟩
  · rintro ⟨blank, rfl, hne, hblank⟩
    rw [nameBehind?, Text.after?_append, Option.bind_some, if_neg hne, (hempty blank).2 hblank]

end Markers

lemma trim_of_mem_namesBehind {marker : Line} {lines : List Line} {name : String}
    (h : name ∈ namesBehind marker lines) : Text.trim name.toList = name.toList := by
  obtain ⟨line, -, hname⟩ := List.mem_filterMap.1 h
  exact trim_of_nameBehind? hname

lemma empty_mem_namesBehind_iff {marker : Line} {lines : List Line} :
    "" ∈ namesBehind marker lines ↔ ∃ line ∈ lines, NamesNothing marker line := by
  rw [namesBehind, List.mem_filterMap]
  exact exists_congr fun line => and_congr_right fun _ => nameBehind?_eq_empty_iff

lemma Text.lowerChar_ne_nil (c : Char) : lowerChar c ≠ [] := by
  unfold lowerChar
  split_ifs
  · exact List.cons_ne_nil _ _
  · exact List.cons_ne_nil _ _
  · split <;> exact List.cons_ne_nil _ _

lemma slugChars_eq_nil_iff {cs : List Char} : slugChars cs = [] ↔ cs = [] := by
  fun_induction slugChars cs <;> simp_all [Text.lowerChar_ne_nil]

lemma slug_eq_empty_iff {name : String} : slug name = "" ↔ name = "" := by
  rw [slug, ← String.toList_inj, String.toList_ofList, String.toList_empty, slugChars_eq_nil_iff,
    String.toList_eq_nil_iff]

/-! ## Scenes -/

/-- The identifiers and names of the scenes that are not the title's. -/
def nameplates (scenes : List Scene) : List (String × Option String) :=
  (scenes.filter (·.kind = .scene)).map fun scene => (scene.id, scene.name)

lemma mem_nameplates {scenes : List Scene} {id : String} {name : Option String} :
    (id, name) ∈ nameplates scenes ↔
      ∃ scene ∈ scenes, scene.kind = .scene ∧ scene.id = id ∧ scene.name = name := by
  simp [nameplates, and_assoc]

section Plates

variable {scenes : List Scene} {names : List String}
  (h : nameplates scenes = names.map fun name => (slug name, some name))

include h

lemma exists_name_of_nameplates {scene : Scene} (hscene : scene ∈ scenes)
    (hkind : scene.kind = .scene) :
    ∃ name ∈ names, scene.name = some name ∧ scene.id = slug name := by
  have hmem := mem_nameplates.2 ⟨scene, hscene, hkind, rfl, rfl⟩
  rw [h] at hmem
  obtain ⟨name, hname, hplate⟩ := List.mem_map.1 hmem
  exact ⟨name, hname, (Prod.mk.inj hplate).2.symm, (Prod.mk.inj hplate).1.symm⟩

lemma exists_scene_of_nameplates {name : String} (hname : name ∈ names) :
    ∃ scene ∈ scenes, scene.kind = .scene ∧ scene.name = some name := by
  have hmem : (slug name, some name) ∈ nameplates scenes := by
    rw [h]
    exact List.mem_map.2 ⟨name, hname, rfl⟩
  obtain ⟨scene, hscene, hkind, -, hname⟩ := mem_nameplates.1 hmem
  exact ⟨scene, hscene, hkind, hname⟩

end Plates

lemma nameplates_append (scenes more : List Scene) :
    nameplates (scenes ++ more) = nameplates scenes ++ nameplates more := by
  rw [nameplates, List.filter_append, List.map_append, nameplates, nameplates]

lemma nameplates_extend (scenes : List Scene) (elements : List Element) :
    nameplates (Chunk.extend scenes elements) = nameplates scenes := by
  rcases List.eq_nil_or_concat scenes with rfl | ⟨scenes, last, rfl⟩
  · rfl
  · rw [List.concat_eq_append, Chunk.extend, List.modifyLast_concat, nameplates_append,
      nameplates_append]
    congr 1
    cases hkind : last.kind <;> simp [nameplates, hkind]

/-- The scene markers among lines are those that the lines are cut at. -/
lemma Chunk.filterMap_sceneName_cut (commands : CommandSet) (lines : List Line) :
    (cut commands lines).2.filterMap (·.heading.sceneName?) =
      lines.filterMap Builtin.sceneName := by
  induction lines with
  | nil => rfl
  | cons line rest ih =>
    cases hl : Heading.ofLine? commands line with
    | none =>
      have hnone := (Heading.ofLine?_eq_none.1 hl).2.1
      rw [cut_content hl, List.filterMap_cons_none hnone, ih]
    | some heading =>
      rw [cut_heading hl, List.filterMap_cons, List.filterMap_cons, ih,
        Heading.sceneName?_of_ofLine? hl]

namespace Builtin

variable {metadata : Metadata} {lines : List Line}

/-- The command of the scene marker never has a block: its headers are markers. -/
lemma contribution_fst_of_block {line : Line} {command : BlockCommand}
    {modifier : Option (List Char)}
    (hl : Heading.ofLine? Registry.builtin.commandSet line = some (.block command modifier))
    (content : List Line) :
    (Chunk.contribution Registry.builtin.commandSet metadata
      (command.decode content modifier)).1 = none := by
  obtain ⟨hc, hheader⟩ := Heading.of_block hl
  have hnone : sceneName line = none := (Heading.sceneName?_of_ofLine? hl).symm
  rw [block_builtin] at hc
  simp only [List.mem_cons, List.not_mem_nil, or_false] at hc
  rcases hc with rfl | rfl | rfl | rfl | rfl | rfl
  · rfl
  · rfl
  · rfl
  · rfl
  · have hrefused : scene.header line = none := by simp only [scene, hnone, Option.map_none]
    cases hrefused.symm.trans hheader
  · rfl

lemma nameplates_read (scenes : List Scene) {chunk : Chunk}
    (hchunk : chunk.CutFrom Registry.builtin.commandSet lines) :
    nameplates (Chunk.read Registry.builtin.commandSet metadata scenes chunk) =
      nameplates scenes ++ nameplates (chunk.heading.sceneName?.map sceneOf).toList := by
  obtain ⟨heading, content⟩ := chunk
  obtain ⟨⟨line, -, hl⟩, -⟩ := hchunk
  rw [Chunk.read, nameplates_extend, nameplates_append]
  congr 1
  cases heading with
  | title => cases scenes <;> rfl
  | scene name => rfl
  | block command modifier =>
    simp only [Chunk.contributes]
    split
    · rfl
    · rw [contribution_fst_of_block hl]
      rfl

/-- Every scene marker opens a scene, and names it; nothing else opens a named one. -/
lemma nameplates_scenesOf (hlines : ∀ line ∈ lines, '\n' ∉ line) :
    nameplates (Walk.scenesOf Registry.builtin.commandSet metadata lines) =
      (namesBehind "# SCENE:".toList lines).map fun name => (slug name, some name) := by
  have hread : ∀ chunks ⊆ (Chunk.cut Registry.builtin.commandSet lines).2, ∀ scenes,
      nameplates (chunks.foldl (Chunk.read Registry.builtin.commandSet metadata) scenes) =
        nameplates scenes ++ (chunks.filterMap (·.heading.sceneName?)).map fun name =>
          ((sceneOf name).id, (sceneOf name).name) := by
    intro chunks hsub
    induction chunks with
    | nil => simp
    | cons chunk rest ih =>
      obtain ⟨hchunk, hrest⟩ := List.cons_subset.1 hsub
      intro scenes
      have hcut := (Chunk.cutFrom_cut Registry.builtin.commandSet lines).2 chunk hchunk
      rw [List.foldl_cons, ih hrest, nameplates_read scenes hcut, List.append_assoc,
        List.filterMap_cons]
      cases chunk.heading.sceneName? <;> rfl
  have hnames : lines.filterMap (fun line =>
      (sceneName line).map fun name => String.ofList (Text.trimEnd name)) =
        namesBehind "# SCENE:".toList lines :=
    List.filterMap_congr fun line hline => map_nameAfter (hlines line hline)
  rw [Walk.scenesOf_eq, Chunk.scenesOf, hread _ (List.Subset.refl _), nameplates_extend,
    Chunk.filterMap_sceneName_cut, ← hnames, ← List.map_filterMap, List.map_map]
  rfl

end Builtin

/-! ## Focus words -/

/-- An element of a scene, or of another element of it. -/
inductive Scene.Holds (scene : Scene) : Element → Prop
  | own {element : Element} : element ∈ scene.elements → scene.Holds element
  | child {element child : Element} :
    scene.Holds element → child ∈ element.children → scene.Holds child

namespace Element

/-- A focus word, if it is one, is among some names, and only prose is nested. -/
structure Focused (names : List String) (element : Element) : Prop where
  focus_mem : ∀ focus children, element = .word focus children → focus ∈ names
  nested : ∀ child ∈ element.children, child.IsProse

variable {names : List String} {element : Element}

lemma IsProse.focused (h : element.IsProse) (names : List String) : element.Focused names := by
  cases element with
  | text | pause => exact ⟨nofun, nofun⟩
  | title | quote | practice | word | closing => exact h.elim

lemma Focused.of_holds {scene : Scene} (h : ∀ element ∈ scene.elements, element.Focused names)
    (hholds : scene.Holds element) : element.Focused names := by
  induction hholds with
  | own hmem => exact h _ hmem
  | child _ hchild ih => exact (ih.nested _ hchild).focused names

end Element

namespace Builtin

/-- The built-in commands take their focus words from the headers. -/
lemma yieldsFrom_focused (metadata : Metadata) {lines : List Line}
    (hlines : ∀ line ∈ lines, '\n' ∉ line) :
    Registry.builtin.commandSet.YieldsFrom metadata lines
      (Element.Focused (namesBehind "## WORD:".toList lines)) where
  title := ⟨nofun, nofun⟩
  prose content element he := (CommandSet.isProse_proseElements he).focused _
  block command hc header hheader modifier hm content _ := by
    rw [block_builtin] at hc
    simp only [List.mem_cons, List.not_mem_nil, or_false] at hc
    rcases hc with rfl | rfl | rfl | rfl | rfl | rfl
    · exact EveryElement.single ⟨nofun, nofun⟩
    · exact EveryElement.single ⟨nofun, nofun⟩
    · obtain ⟨name, hname, rfl⟩ := Option.map_eq_some_iff.1 hm
      refine EveryElement.single ⟨?_, fun child hchild => CommandSet.isProse_proseElements hchild⟩
      rintro focus children ⟨⟩
      refine List.mem_filterMap.2 ⟨header, hheader, ?_⟩
      rw [← map_nameAfter (hlines header hheader), hname]
      rfl
    · exact EveryElement.single ⟨nofun, fun child hchild => CommandSet.isProse_proseElements hchild⟩
    · exact ⟨List.forall_mem_singleton.2 nofun,
        fun element he => (CommandSet.isProse_proseElements he).focused _⟩
    · exact EveryElement.single ⟨nofun, nofun⟩

end Builtin

/-! ## Documents -/

/-- How the names of a document come from the lines of its script. -/
structure Document.NamedBy (lines : List Line) (doc : Document) : Prop where
  /-- A line is a marker as soon as anything stands behind it. -/
  marker_iff : ∀ line ∈ lines,
    ((Builtin.sceneName line).isSome ↔ ∃ rest, line = "# SCENE:".toList ++ rest ∧ rest ≠ []) ∧
      ((Builtin.word.header line).isSome ↔ ∃ rest, line = "## WORD:".toList ++ rest ∧ rest ≠ [])
  /-- The scenes that are not the title's are those of the scene markers, in their order. -/
  nameplates_eq : nameplates doc.scenes =
    (namesBehind "# SCENE:".toList lines).map fun name => (slug name, some name)
  /-- Their names end in no white space, and are empty just where the identifiers are. -/
  trimmed : ∀ scene ∈ doc.scenes, scene.kind = .scene → ∃ name, scene.name = some name ∧
    Text.trim name.toList = name.toList ∧ (scene.id = "" ↔ name = "")
  /-- A scene without a real name is one of a marker with white space alone. -/
  unnamed_iff : (∃ scene ∈ doc.scenes, scene.kind = .scene ∧ scene.name = some "") ↔
    ∃ line ∈ lines, NamesNothing "# SCENE:".toList line
  focus_mem : ∀ scene ∈ doc.scenes, ∀ focus children, scene.Holds (.word focus children) →
    focus ∈ namesBehind "## WORD:".toList lines ∧ Text.trim focus.toList = focus.toList
  /-- A word that is not real is that of a header with white space alone. -/
  unfocused : ∀ scene ∈ doc.scenes, ∀ children, scene.Holds (.word "" children) →
    ∃ line ∈ lines, NamesNothing "## WORD:".toList line

/-- What the built-in commands name in a script is named by its markers: with real names, unless
there is white space alone behind one of them. -/
theorem Document.namedBy_parse (source : String) :
    (Parser.builtin.parse source).1.NamedBy
      (Text.bodyLines (extractHeader source.toList).2) := by
  have hlines : ∀ line ∈ Text.bodyLines (extractHeader source.toList).2, '\n' ∉ line :=
    fun _ => Text.newline_notMem_of_mem_bodyLines
  have hplates : nameplates (Parser.builtin.parse source).1.scenes = _ :=
    Builtin.nameplates_scenesOf hlines
  have hfocused : EveryElement _ (Parser.builtin.parse source).1.scenes :=
    (Builtin.yieldsFrom_focused _ hlines).scenesOf
  have hfocus := fun scene hscene focus children hholds =>
    (Element.Focused.of_holds (hfocused scene hscene) hholds).focus_mem focus children rfl
  refine ⟨fun line hline => ⟨isSome_nameAfter_iff (hlines line hline), ?_⟩, hplates, ?_, ?_, ?_, ?_⟩
  · rw [Builtin.word, Option.isSome_map]
    exact isSome_nameAfter_iff (hlines line hline)
  · intro scene hscene hkind
    obtain ⟨name, hname, hsome, hid⟩ := exists_name_of_nameplates hplates hscene hkind
    refine ⟨name, hsome, trim_of_mem_namesBehind hname, ?_⟩
    rw [hid, slug_eq_empty_iff]
  · rw [← empty_mem_namesBehind_iff]
    refine ⟨?_, exists_scene_of_nameplates hplates⟩
    rintro ⟨scene, hscene, hkind, hempty⟩
    obtain ⟨name, hname, hsome, -⟩ := exists_name_of_nameplates hplates hscene hkind
    rwa [← Option.some.inj (hsome.symm.trans hempty)]
  · intro scene hscene focus children hholds
    have hmem := hfocus scene hscene focus children hholds
    exact ⟨hmem, trim_of_mem_namesBehind hmem⟩
  · intro scene hscene children hholds
    exact empty_mem_namesBehind_iff.1 (hfocus scene hscene "" children hholds)

/-- White space behind the markers makes a word and a scene without names. -/
theorem Document.parse_blank_names :
    let doc := (Parser.builtin.parse "# SCENE: a\n## WORD: \nx\n# SCENE: \n").1
    nameplates doc.scenes = [("a", some "a"), ("", some "")] ∧
      ∃ scene ∈ doc.scenes, ∃ children, .word "" children ∈ scene.elements := by
  refine ⟨by decide +kernel, _, List.mem_cons_self, _, List.mem_cons_self⟩

end LessonScript
