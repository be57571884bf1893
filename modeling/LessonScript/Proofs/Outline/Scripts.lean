import LessonScript.Proofs.Body.WellFormed
import LessonScript.Proofs.Header.Fields
import LessonScript.Proofs.Inline.Pauses
import LessonScript.Proofs.Outline.Labels

/-!
# Labels of parsed scripts

A script is cut at its line feeds before anything is made of it. So a parsed document has no line
feed in a label as long as its commands put none there, and the built-in commands only take pieces
of the lines.
-/

namespace LessonScript

open Text (Line)

def BlockContent.OneLine : BlockContent → Prop
  | .element e => e.OneLine
  | .container e lines => e.OneLine ∧ ∀ line ∈ lines, '\n' ∉ line
  | .scene s lines => s.OneLine ∧ ∀ line ∈ lines, '\n' ∉ line

/-- What the commands make of lines without line feeds has none in its labels. -/
structure CommandSet.KeepsLines (commands : CommandSet) : Prop where
  inline : ∀ command ∈ commands.inline, ∀ line, '\n' ∉ line →
    ∀ occurrence ∈ command.pattern.find line, (command.decode occurrence.capture).OneLine
  block : ∀ command ∈ commands.block, ∀ header modifier lines, '\n' ∉ header →
    command.header header = some modifier → (∀ line ∈ lines, '\n' ∉ line) →
    (command.decode lines modifier).OneLine

/-! ## Metadata -/

/-- The value of a header line is a piece of the line. -/
lemma MetaValue.isLine_of_headerField {line : Line} (hline : '\n' ∉ line) {key : String}
    {value : MetaValue} (h : headerField line = some (key, value)) : IsLine value.shown := by
  obtain ⟨before, behind, rfl, -, -, -, rfl⟩ := headerField_eq_some_iff.1 h
  refine MetaValue.isLine_shown fun hfeed => hline (List.mem_append_right before ?_)
  exact List.mem_cons_of_mem ':' (Text.trim_subset behind hfeed)

lemma isLine_extractHeader {source : List Char} {key : String} {value : MetaValue}
    (h : (extractHeader source).1.get? key = some value) : IsLine value.shown := by
  rw [extractHeader] at h
  cases hcut : (afterFence? source).bind cutAtFence? with
  | none =>
    rw [hcut] at h
    cases h
  | some pair =>
    rw [hcut] at h
    have hfield : (key, value) ∈ (Text.textLines pair.1).filterMap headerField :=
      Table.mem_of_get?_ofList h
    obtain ⟨line, hline, hvalue⟩ := List.mem_filterMap.1 hfield
    exact MetaValue.isLine_of_headerField (Text.newline_notMem_of_mem_textLines hline) hvalue

/-! ## Lines of prose -/

lemma eq_raw_of_mem_rawSegments {cs : List Char} {segment : Segment}
    (h : segment ∈ rawSegments cs) : segment = .raw (String.ofList cs) := by
  cases cs with
  | nil => cases h
  | cons c cs => exact List.mem_singleton.1 h

/-- A segment is a piece of the line, or decoded from an occurrence that is kept. -/
lemma raw_or_decoded_of_mem_assemble {offset : Nat} {line : Line} {kept : List Candidate}
    {segment : Segment} (h : segment ∈ assemble offset line kept) :
    (∃ piece ⊆ line, segment = .raw (String.ofList piece)) ∨ ∃ c ∈ kept, segment = c.segment := by
  induction kept generalizing offset line with
  | nil => exact .inl ⟨line, List.Subset.refl _, eq_raw_of_mem_rawSegments h⟩
  | cons c kept ih =>
    rw [assemble] at h
    rcases List.mem_append.1 h with h | h
    · exact .inl ⟨_, List.take_subset _ line, eq_raw_of_mem_rawSegments h⟩
    · rcases List.mem_cons.1 h with rfl | h
      · exact .inr ⟨c, List.mem_cons_self, rfl⟩
      · rcases ih h with ⟨piece, hpiece, rfl⟩ | ⟨d, hd, rfl⟩
        · exact .inl ⟨piece, List.Subset.trans hpiece (List.drop_subset _ line), rfl⟩
        · exact .inr ⟨d, List.mem_cons_of_mem c hd, rfl⟩

/-! ## Parsing -/

lemma newline_notMem_of_nameAfter {marker line name : Line}
    (h : nameAfter marker line = some name) : '\n' ∉ name := by
  obtain ⟨rest, -, h⟩ := Option.bind_eq_some_iff.1 h
  split at h
  · obtain ⟨c, -, h⟩ := Option.bind_eq_some_iff.1 h
    split at h
    · cases h
    · rename_i hc
      obtain rfl := Option.some.inj h
      simpa [eq_comm] using hc
  · split at h
    · cases h
    · rename_i hname
      obtain rfl := Option.some.inj h
      exact hname

/-- A name goes without the white space at its end. -/
lemma isLine_trimEnd_of_nameAfter {marker line name : Line}
    (h : nameAfter marker line = some name) : IsLine (String.ofList (Text.trimEnd name)) :=
  isLine_ofList.2 fun hfeed => newline_notMem_of_nameAfter h (Text.trimEnd_subset name hfeed)

lemma oneLine_sceneOf {line name : Line} (h : Builtin.sceneName line = some name) :
    (Builtin.sceneOf name).OneLine :=
  Scene.oneLine_iff.2 ⟨isLine_trimEnd_of_nameAfter h, List.forall_mem_nil _⟩

lemma Scene.oneLine_extend {scenes : List Scene} (h : ∀ scene ∈ scenes, scene.OneLine)
    {elements : List Element} (helements : ∀ element ∈ elements, element.OneLine) :
    ∀ scene ∈ Chunk.extend scenes elements, scene.OneLine := by
  refine Chunk.forall_mem_extend h fun scene hscene => ?_
  obtain ⟨hheading, hown⟩ := Scene.oneLine_iff.1 hscene
  exact Scene.oneLine_iff.2 ⟨hheading, List.forall_mem_append.2 ⟨hown, helements⟩⟩

section Parsing

variable {commands : CommandSet} (h : commands.KeepsLines)

include h

namespace CommandSet.KeepsLines

lemma scanSegments {line : Line} (hline : '\n' ∉ line) :
    ∀ segment ∈ scanSegments commands.inline line, segment.OneLine := by
  have hraw : ∀ piece ⊆ line, (Segment.raw (String.ofList piece)).OneLine := fun piece hpiece =>
    Segment.oneLine_raw.2 (isLine_ofList.2 fun hfeed => hline (hpiece hfeed))
  have hassembled : ∀ segment ∈ assemble 0 line (keepDisjoint 0 (candidates commands.inline line)),
      segment.OneLine := by
    intro segment hsegment
    rcases raw_or_decoded_of_mem_assemble hsegment with ⟨piece, hpiece, rfl⟩ | ⟨c, hc, rfl⟩
    · exact hraw piece hpiece
    · have hfound := (List.mem_mergeSort).1 ((keepDisjoint_sublist 0 _).subset hc)
      obtain ⟨command, hcommand, hfound⟩ := List.mem_flatMap.1 hfound
      obtain ⟨occurrence, hoccurrence, rfl⟩ := List.mem_map.1 hfound
      exact h.inline command hcommand line hline occurrence hoccurrence
  unfold LessonScript.scanSegments
  split
  · exact List.forall_mem_singleton.2 (hraw line (List.Subset.refl line))
  · exact hassembled

lemma proseElements {lines : List Line} (hlines : ∀ line ∈ lines, '\n' ∉ line) :
    ∀ element ∈ commands.proseElements lines, element.OneLine := by
  rw [CommandSet.proseElements_eq_map]
  refine List.forall_mem_map.2 fun line hline => ?_
  have htrim : '\n' ∉ Text.trim line := fun hfeed =>
    hlines line (List.mem_of_mem_filter hline) (Text.trim_subset line hfeed)
  rw [proseElement]
  split
  · exact Element.oneLine_pause _
  · exact Element.oneLine_text (h.scanSegments htrim)

variable {metadata : Metadata}
  (hmetadata : ∀ key value, metadata.get? key = some value → IsLine value.shown)

include hmetadata

omit h in
lemma titleElement : (titleElement metadata).OneLine := by
  have hshown : ∀ key, ∀ text ∈ (metadata.get? key).map MetaValue.shown, IsLine text := by
    intro key text htext
    obtain ⟨value, hvalue, rfl⟩ := Option.map_eq_some_iff.1 htext
    exact hmetadata key value hvalue
  exact Element.oneLine_title (hshown "title_en") (hshown "title_zh")

lemma contribution {content : BlockContent} (hcontent : content.OneLine) :
    let added := Chunk.contribution commands metadata content
    (∀ scene ∈ added.1.toList, scene.OneLine) ∧ ∀ element ∈ added.2, element.OneLine := by
  cases content with
  | element element =>
    cases element with
    | title en zh =>
      exact ⟨List.forall_mem_nil _, List.forall_mem_singleton.2 (titleElement hmetadata)⟩
    | text | quote | practice | word | closing | pause =>
      exact ⟨List.forall_mem_nil _, List.forall_mem_singleton.2 hcontent⟩
  | container element lines =>
    obtain ⟨helement, hlines⟩ := hcontent
    refine ⟨List.forall_mem_nil _, List.forall_mem_singleton.2 ?_⟩
    exact helement.withChildren (h.proseElements hlines)
  | scene scene lines =>
    exact ⟨List.forall_mem_singleton.2 hcontent.1, h.proseElements hcontent.2⟩

lemma contributes {lines : List Line} (hlines : ∀ line ∈ lines, '\n' ∉ line) {chunk : Chunk}
    (hchunk : chunk.CutFrom commands lines) (first : Bool) :
    let added := chunk.contributes commands metadata first
    (∀ scene ∈ added.1.toList, scene.OneLine) ∧ ∀ element ∈ added.2, element.OneLine := by
  obtain ⟨heading, content⟩ := chunk
  obtain ⟨⟨line, hline, hl⟩, hsub⟩ := hchunk
  have hcontent : ∀ line ∈ content, '\n' ∉ line := fun line hline => hlines line (hsub hline)
  have hprose := h.proseElements hcontent
  intro added
  cases heading with
  | title =>
    have htitle : Scene.titleScene.OneLine :=
      Scene.oneLine_iff.2 ⟨by decide, List.forall_mem_nil _⟩
    refine ⟨?_, List.forall_mem_cons.2 ⟨titleElement hmetadata, hprose⟩⟩
    cases first with
    | true => exact List.forall_mem_singleton.2 htitle
    | false => exact List.forall_mem_nil _
  | scene name =>
    exact ⟨List.forall_mem_singleton.2 (oneLine_sceneOf (Heading.of_scene hl)), hprose⟩
  | block command modifier =>
    obtain ⟨hcommand, hheader⟩ := Heading.of_block hl
    have hdecoded := h.block command hcommand line modifier content (hlines line hline) hheader
    simp only [added, Chunk.contributes]
    split
    · exact ⟨List.forall_mem_nil _, List.forall_mem_nil _⟩
    · exact h.contribution hmetadata (hdecoded hcontent)

lemma scenesOf {lines : List Line} (hlines : ∀ line ∈ lines, '\n' ∉ line) :
    ∀ scene ∈ Walk.scenesOf commands metadata lines, scene.OneLine := by
  apply Walk.scenesOf_induction (motive := fun scenes => ∀ scene ∈ scenes, scene.OneLine)
  · exact List.forall_mem_nil _
  · intro scenes chunk hchunk hscenes
    obtain ⟨hopened, helements⟩ := h.contributes hmetadata hlines hchunk scenes.isEmpty
    exact Scene.oneLine_extend (List.forall_mem_append.2 ⟨hscenes, hopened⟩) helements

end CommandSet.KeepsLines

/-- A script parsed with commands that keep to the lines has a drawing of one line for each node. -/
lemma CommandSet.KeepsLines.parse (source : String) :
    (commands.parse source).outline.OneLine := by
  have hmetadata : ∀ key value, (extractHeader source.toList).1.get? key = some value →
      IsLine value.shown := fun _ _ => isLine_extractHeader
  refine Document.oneLine_iff.2 ⟨?_, ?_⟩
  · rw [Document.shownTitle]
    cases htitle : (commands.parse source).metadata.get? "title" with
    | none => decide
    | some value => exact hmetadata "title" value htitle
  · exact h.scenesOf hmetadata fun line => Text.newline_notMem_of_mem_bodyLines

end Parsing

/-! ## The built-in commands -/

namespace Builtin

lemma capture_subset_of_spanAtHead {opening closing : List Char} {allowed : Char → Bool}
    {cs : List Char} {found : HeadMatch} (h : spanAtHead opening closing allowed cs = some found) :
    found.capture.getD [] ⊆ cs := by
  obtain ⟨rest, hrest, h⟩ := Option.bind_eq_some_iff.1 h
  obtain ⟨⟨inner, behind⟩, hcut, h⟩ := Option.bind_eq_some_iff.1 h
  dsimp only at h
  split at h
  · obtain rfl := Option.some.inj h
    rw [Text.after?_eq_some_iff.1 hrest, Text.eq_of_cutAt? hcut, List.append_assoc]
    exact List.subset_append_of_subset_right _ (List.subset_append_left ..)
  · cases h

lemma newline_notMem_capture {tag : String} {line : Line} (hline : '\n' ∉ line) {m : Occurrence}
    (hm : m ∈ (spanPattern tag).find line) : '\n' ∉ m.capture.getD [] := by
  obtain ⟨n, found, -, hfound, hcapture⟩ := accepted_of_mem_occurrencesFrom hm
  rw [hcapture]
  exact fun hfeed => hline (List.drop_subset _ line (capture_subset_of_spanAtHead hfound hfeed))

/-- The sides of quoted pairs are among the texts, or empty. -/
lemma forall_quotePairs {P : List Char → Prop} (hnil : P []) {en : List Char} (hen : P en)
    {texts : List (List Char)} (htexts : ∀ text ∈ texts, P text) :
    ∀ pair ∈ quotePairs en texts, P pair.en.toList ∧ P pair.zh.toList := by
  induction texts generalizing en with
  | nil => simpa [quotePairs] using ⟨hen, hnil⟩
  | cons text rest ih =>
    obtain ⟨htext, hrest⟩ := List.forall_mem_cons.1 htexts
    rw [quotePairs]
    split
    · exact List.forall_mem_cons.2 ⟨by simpa using ⟨hen, htext⟩, ih hnil hrest⟩
    · exact ih htext hrest

/-- The sides of practice pairs are among the lines, or empty. -/
lemma forall_practicePairs {P : List Char → Prop} (hnil : P []) {pending : Option (List Char)}
    (hpending : ∀ en ∈ pending, P en) {texts : List (List Char)} (htexts : ∀ text ∈ texts, P text) :
    ∀ pair ∈ practicePairs pending texts, P pair.en.toList ∧ P pair.zh.toList := by
  have hnone : ∀ en ∈ (none : Option (List Char)), P en :=
    fun _ h => absurd h (Option.not_mem_none _)
  induction texts generalizing pending with
  | nil =>
    cases pending with
    | none => exact List.forall_mem_nil _
    | some en => simpa [practicePairs] using ⟨hpending en rfl, hnil⟩
  | cons text rest ih =>
    obtain ⟨htext, hrest⟩ := List.forall_mem_cons.1 htexts
    cases pending with
    | none =>
      rw [practicePairs]
      split
      · exact ih hnone hrest
      · exact ih (fun en hen => Option.some.inj hen ▸ htext) hrest
    | some en =>
      rw [practicePairs]
      split
      · exact ih hnone hrest
      · refine List.forall_mem_cons.2 ⟨?_, ih hnone hrest⟩
        simpa using ⟨hpending en rfl, htext⟩

lemma oneLine_decode_inline {command : InlineCommand} (hc : command ∈ inlineCommands) {line : Line}
    (hline : '\n' ∉ line) {m : Occurrence} (hm : m ∈ command.pattern.find line) :
    (command.decode m.capture).OneLine := by
  rcases mem_inlineCommands.1 hc with rfl | rfl | rfl
  · exact Segment.oneLine_pause _
  · exact Outline.oneLine_leaf.2 (isLine_ofList.2 (newline_notMem_capture hline hm))
  · exact Outline.oneLine_leaf.2 (isLine_ofList.2 (newline_notMem_capture hline hm))

lemma oneLine_decode_block {command : BlockCommand} (hc : command ∈ blockCommands) {header : Line}
    {modifier : Option (List Char)} (hheader : command.header header = some modifier)
    {lines : List Line} (hlines : ∀ line ∈ lines, '\n' ∉ line) :
    (command.decode lines modifier).OneLine := by
  have hlist : blockCommands = [quote, practice, word, closing, scene, title] := rfl
  rw [hlist] at hc
  simp only [List.mem_cons, List.not_mem_nil, or_false] at hc
  rcases hc with rfl | rfl | rfl | rfl | rfl | rfl
  · refine Element.oneLine_quote fun pair hpair => ?_
    refine forall_quotePairs (P := ('\n' ∉ ·)) (by decide) (by decide) ?_ pair
      (List.mem_of_mem_filter hpair)
    intro text htext
    obtain ⟨line, hline, hquoted⟩ := List.mem_filterMap.1 htext
    rw [Text.after?_eq_some_iff] at hquoted
    exact fun hfeed => hlines line hline (hquoted ▸ List.mem_append_right _ hfeed)
  · refine Element.oneLine_practice (forall_practicePairs (P := ('\n' ∉ ·)) (by decide) ?_ ?_)
    · exact fun _ h => absurd h (Option.not_mem_none _)
    · intro text htext
      obtain ⟨line, hline, rfl⟩ := List.mem_map.1 (List.mem_of_mem_filter htext)
      exact fun hfeed => hlines line hline (Text.trim_subset line hfeed)
  · obtain ⟨name, hname, rfl⟩ := Option.map_eq_some_iff.1 hheader
    have hfocus := isLine_trimEnd_of_nameAfter hname
    exact ⟨Element.oneLine_word.2 ⟨hfocus, List.forall_mem_nil _⟩, hlines⟩
  · exact ⟨Element.oneLine_closing.2 (List.forall_mem_nil _), hlines⟩
  · obtain ⟨name, hname, rfl⟩ := Option.map_eq_some_iff.1 hheader
    exact ⟨oneLine_sceneOf hname, hlines⟩
  · exact Element.oneLine_title (fun _ h => absurd h (Option.not_mem_none _))
      fun _ h => absurd h (Option.not_mem_none _)

lemma keepsLines {registry : Registry}
    (h : ∀ command ∈ registry.commands.values, command ∈ commands) :
    registry.commandSet.KeepsLines where
  inline command hc _ hline _ hm :=
    oneLine_decode_inline ((mem_of_values h).1 command hc) hline hm
  block command hc _ _ _ _ hheader hlines :=
    oneLine_decode_block ((mem_of_values h).2 command hc) hheader hlines

end Builtin

end LessonScript
