import LessonScript.Parser
import LessonScript.Proofs.Inline.Order
import LessonScript.Proofs.Text.Numeral
import Mathlib.Data.List.Chain
import Mathlib.Data.List.Nodup

/-!
# Writing a line

A segment is written as its text or as a directive. No directive opens or closes within another one
or within raw text when the texts hold no bracket, so each built-in command finds just its own
directives, and a scan of the written line gives the segments back.
-/

namespace LessonScript

/-! ## Finding one's own -/

section Recognisers

variable {recognise : List Char → Option HeadMatch} {name : List Char}

/-- No occurrence starts within a text, whatever comes behind the text. -/
def Passes (recognise : List Char → Option HeadMatch) (cs : List Char) : Prop :=
  ∀ offset rest, occurrencesFrom recognise offset 0 (cs ++ rest) =
    occurrencesFrom recognise (offset + cs.length) 0 rest

lemma Passes.append {cs ds : List Char} (hc : Passes recognise cs) (hd : Passes recognise ds) :
    Passes recognise (cs ++ ds) := by
  intro offset rest
  rw [List.append_assoc, hc, hd, List.length_append, Nat.add_assoc]

lemma Passes.cons {c : Char} {cs : List Char} (hc : ∀ rest, recognise (c :: (cs ++ rest)) = none)
    (hcs : Passes recognise cs) : Passes recognise (c :: cs) := by
  intro offset rest
  rw [List.cons_append, occurrencesFrom, hc, hcs, List.length_cons, Nat.add_right_comm,
    Nat.add_assoc]

lemma LooksFor.rejects (h : LooksFor recognise name) {cs : List Char}
    (hcs : ¬ '[' :: name <+: cs) : recognise cs = none := by
  cases hr : recognise cs with
  | none => rfl
  | some found => exact absurd (h cs found hr) hcs

lemma LooksFor.passes (h : LooksFor recognise name) {cs : List Char} (hfree : '[' ∉ cs) :
    Passes recognise cs := by
  induction cs with
  | nil => exact fun _ _ => rfl
  | cons c cs ih =>
    have hcs := ih (List.not_mem_of_not_mem_cons hfree)
    refine Passes.cons (fun rest => h.rejects fun hopen => ?_) hcs
    exact List.ne_of_not_mem_cons hfree (List.cons_prefix_cons.1 hopen).1

/-- A mark that is no directive of the name: it opens with its only bracket, and the text behind
the bracket parts from the name. -/
def OtherMark (name mark : List Char) : Prop :=
  mark.head? = some '[' ∧ '[' ∉ mark.tail ∧ Apart ('[' :: name) mark

instance (name mark : List Char) : Decidable (OtherMark name mark) :=
  inferInstanceAs (Decidable (_ ∧ _ ∧ _))

lemma LooksFor.passes_mark (h : LooksFor recognise name) {mark : List Char}
    (hmark : OtherMark name mark) : Passes recognise mark := by
  obtain ⟨hhead, hfree, hapart⟩ := hmark
  obtain ⟨behind, rfl⟩ := List.head?_eq_some_iff.1 hhead
  refine Passes.cons (fun rest => h.rejects fun hopen => ?_) (h.passes hfree)
  exact hapart.not_both hopen (List.prefix_append ('[' :: behind) rest)

lemma occurrencesFrom_skip (offset : Nat) (cs rest : List Char) :
    occurrencesFrom recognise offset cs.length (cs ++ rest) =
      occurrencesFrom recognise (offset + cs.length) 0 rest := by
  induction cs generalizing offset with
  | nil => rfl
  | cons c cs ih =>
    rw [List.length_cons, List.cons_append, occurrencesFrom, ih, Nat.add_right_comm, Nat.add_assoc]

lemma occurrencesFrom_accepted {cs rest : List Char} {capture : Option (List Char)} (hne : cs ≠ [])
    (h : recognise (cs ++ rest) = some ⟨cs.length, capture⟩) (offset : Nat) :
    occurrencesFrom recognise offset 0 (cs ++ rest) =
      ⟨offset, cs, capture⟩ :: occurrencesFrom recognise (offset + cs.length) 0 rest := by
  obtain ⟨c, cs, rfl⟩ := List.exists_cons_of_ne_nil hne
  have hskip := @occurrencesFrom_skip recognise (offset + 1) cs rest
  rw [List.cons_append] at h ⊢
  rw [occurrencesFrom, h]
  simp only [List.length_cons, Nat.add_one_sub_one, hskip, List.take_succ_cons, List.take_left]
  rw [Nat.add_right_comm, Nat.add_assoc]

end Recognisers

/-! ## Written segments -/

namespace Segment

/-- The text that a segment is written as. A line has no text of its own for the output of other
commands than the built-in ones. -/
def written : Segment → List Char
  | .raw text => text.toList
  | .pause duration => "[pause:".toList ++ Text.digits duration.count ++ "]".toList
  | .ego text => "[ego]".toList ++ text.toList ++ "[/ego]".toList
  | .bold text => "[bold]".toList ++ text.toList ++ "[/bold]".toList
  | .directive .. => []

lemma written_raw (text : String) : (raw text).written = text.toList := rfl

lemma written_pause (duration : Millis) :
    (pause duration).written = "[pause:".toList ++ Text.digits duration.count ++ "]".toList := rfl

lemma written_ego (text : String) :
    (ego text).written = "[ego]".toList ++ text.toList ++ "[/ego]".toList := rfl

lemma written_bold (text : String) :
    (bold text).written = "[bold]".toList ++ text.toList ++ "[/bold]".toList := rfl

/-- Texts hold no opening bracket, and raw text is not empty. -/
def Writable : Segment → Prop
  | .raw text => text.toList ≠ [] ∧ '[' ∉ text.toList
  | .pause _ => True
  | .ego text | .bold text => '[' ∉ text.toList
  | .directive .. => False

/-- The marks of a written segment that open with a bracket. -/
def marks : Segment → List (List Char)
  | .pause _ => ["[pause:".toList]
  | .ego _ => ["[ego]".toList, "[/ego]".toList]
  | .bold _ => ["[bold]".toList, "[/bold]".toList]
  | .raw _ | .directive .. => []

def isRaw : Segment → Bool
  | .raw _ => true
  | _ => false

/-- The command that reads a segment, and the part of the written text that it captures. -/
def reading? : Segment → Option (InlineCommand × List Char)
  | .pause duration => some (Builtin.pause, Text.digits duration.count)
  | .ego text => some (Builtin.ego, text.toList)
  | .bold text => some (Builtin.bold, text.toList)
  | _ => none

lemma written_ne_nil {s : Segment} {reading : InlineCommand × List Char}
    (h : s.reading? = some reading) : s.written ≠ [] := by
  cases s <;> cases h
  · simp [written_pause]
  · simp [written_ego]
  · simp [written_bold]

/-- The candidate that a segment written at an offset is. -/
def candidate? (offset : Nat) (s : Segment) : Option Candidate :=
  s.reading?.map fun (command, capture) => ⟨command, ⟨offset, s.written, some capture⟩⟩

end Segment

namespace Builtin

lemma nodup_names_inlineCommands : (inlineCommands.map InlineCommand.name).Nodup := by decide

lemma eq_of_name_eq {a b : InlineCommand} (ha : a ∈ inlineCommands) (hb : b ∈ inlineCommands)
    (h : a.name = b.name) : a = b :=
  List.inj_on_of_nodup_map nodup_names_inlineCommands ha hb h

lemma mem_of_reading {s : Segment} {command : InlineCommand} {capture : List Char}
    (h : s.reading? = some (command, capture)) : command ∈ inlineCommands := by
  rw [mem_inlineCommands]
  cases s <;> cases h <;> simp

lemma isWordChar_of_mem_digits (n : Nat) : ∀ c ∈ Text.digits n, isWordChar c = true := by
  intro c hc
  simp [isWordChar, Char.isAlphanum, Text.isDigit_of_mem_digits hc]

lemma pauseAtHead_word {word : List Char} (hne : word ≠ [])
    (hword : ∀ c ∈ word, isWordChar c = true) (rest : List Char) :
    pauseAtHead ("[pause:".toList ++ word ++ "]".toList ++ rest) =
      some ⟨("[pause:".toList ++ word ++ "]".toList).length, some word⟩ := by
  have htake : (word ++ ']' :: rest).takeWhile isWordChar = word := by
    rw [List.takeWhile_append_of_pos hword, List.takeWhile_cons_of_neg (by decide),
      List.append_nil]
  have hbehind : Text.after? "[pause".toList
      ("[pause:".toList ++ word ++ "]".toList ++ rest) = some (':' :: (word ++ ']' :: rest)) := by
    rw [Text.after?_eq_some_iff]
    simp
  obtain ⟨c, cs, rfl⟩ := List.exists_cons_of_ne_nil hne
  rw [pauseAtHead, hbehind]
  simp only [Option.bind_eq_bind, Option.bind_some, htake, List.drop_left]
  have hlength : "[pause".toList.length + (c :: cs).length + 2 =
      ("[pause:".toList ++ c :: cs ++ "]".toList).length := by
    simp
    omega
  rw [← hlength]

lemma cutAt?_bracket {mark text : List Char} (hfree : '[' ∉ text) (rest : List Char) :
    Text.cutAt? ('[' :: mark) (text ++ ('[' :: mark ++ rest)) = some (text, rest) := by
  induction text with
  | nil =>
    rw [List.nil_append, List.cons_append, Text.cutAt?, ← List.cons_append, Text.after?_append]
  | cons c text ih =>
    have hc : '[' ≠ c := List.ne_of_not_mem_cons hfree
    rw [List.cons_append, Text.cutAt?, Text.after?, if_neg hc,
      ih (List.not_mem_of_not_mem_cons hfree)]
    rfl

lemma spanAtHead_written {opening mark text : List Char} (hfree : '[' ∉ text) (rest : List Char) :
    spanAtHead opening ('[' :: mark) (fun _ => true) (opening ++ text ++ '[' :: mark ++ rest) =
      some ⟨(opening ++ text ++ '[' :: mark).length, some text⟩ := by
  have hopening : Text.after? opening (opening ++ text ++ '[' :: mark ++ rest) =
      some (text ++ ('[' :: mark ++ rest)) := by
    rw [Text.after?_eq_some_iff]
    simp
  rw [spanAtHead, hopening]
  simp only [Option.bind_eq_bind, Option.bind_some, cutAt?_bracket hfree, List.length_append]
  rw [if_pos (by simp)]

/-- A recogniser finds the directives of its command in a written segment, and nothing else. -/
def Reads (recognise : List Char → Option HeadMatch) (command : InlineCommand) (s : Segment) :
    Prop :=
  ∀ offset rest, occurrencesFrom recognise offset 0 (s.written ++ rest) =
    ((s.candidate? offset).toList.filter (·.command.name = command.name)).map
        Candidate.occurrence ++
      occurrencesFrom recognise (offset + s.written.length) 0 rest

section Reads

variable {recognise : List Char → Option HeadMatch} {command : InlineCommand} {s : Segment}

lemma reads_of_accepted {capture : List Char} (hown : s.reading? = some (command, capture))
    (h : ∀ rest, recognise (s.written ++ rest) = some ⟨s.written.length, some capture⟩) :
    Reads recognise command s := by
  intro offset rest
  rw [occurrencesFrom_accepted (Segment.written_ne_nil hown) (h rest), Segment.candidate?, hown]
  simp

lemma reads_of_passes (hother : ∀ reading ∈ s.reading?, reading.1.name ≠ command.name)
    (h : Passes recognise s.written) : Reads recognise command s := by
  intro offset rest
  rw [h, Segment.candidate?]
  cases hs : s.reading? with
  | none => rfl
  | some reading => simp [hother reading hs]

/-- The marks of one built-in command are no directives of another. -/
lemma otherMark_of_mem_marks (hc : command ∈ inlineCommands)
    (hother : ∀ reading ∈ s.reading?, reading.1.name ≠ command.name) :
    ∀ mark ∈ s.marks, OtherMark command.name.toList mark := by
  have hmarks : ∀ command ∈ inlineCommands,
      (pause.name ≠ command.name → OtherMark command.name.toList "[pause:".toList) ∧
      (ego.name ≠ command.name → OtherMark command.name.toList "[ego]".toList ∧
        OtherMark command.name.toList "[/ego]".toList) ∧
      (bold.name ≠ command.name → OtherMark command.name.toList "[bold]".toList ∧
        OtherMark command.name.toList "[/bold]".toList) := by decide
  obtain ⟨hpause, hego, hbold⟩ := hmarks command hc
  cases s with
  | raw text | directive name text => simp [Segment.marks]
  | pause duration => simpa [Segment.marks] using hpause (hother _ rfl)
  | ego text => simpa [Segment.marks] using hego (hother _ rfl)
  | bold text => simpa [Segment.marks] using hbold (hother _ rfl)

/-- A command finds nothing in a written segment whose marks are all of other commands. -/
lemma passes_written {name : List Char} (h : LooksFor recognise name) (hw : s.Writable)
    (hmarks : ∀ mark ∈ s.marks, OtherMark name mark) : Passes recognise s.written := by
  cases s with
  | raw text => exact h.passes hw.2
  | directive name text => cases hw
  | pause duration =>
    have hdigits : '[' ∉ Text.digits duration.count :=
      fun hm => absurd (Text.isDigit_of_mem_digits hm) (by decide)
    have hopening := h.passes_mark (hmarks _ List.mem_cons_self)
    exact (hopening.append (h.passes hdigits)).append (h.passes (by decide))
  | ego text | bold text =>
    obtain ⟨hopening, hclosing⟩ := List.forall_mem_cons.1 hmarks
    have hclosing := hclosing _ List.mem_cons_self
    exact ((h.passes_mark hopening).append (h.passes hw)).append (h.passes_mark hclosing)

/-- To read written segments, a command has to accept its own directives. -/
lemma reads_of_looksFor (hc : command ∈ inlineCommands)
    (h : LooksFor recognise command.name.toList) (hw : s.Writable)
    (hown : ∀ capture, s.reading? = some (command, capture) → ∀ rest,
      recognise (s.written ++ rest) = some ⟨s.written.length, some capture⟩) :
    Reads recognise command s := by
  by_cases hreading : ∃ capture, s.reading? = some (command, capture)
  · obtain ⟨capture, hreading⟩ := hreading
    exact reads_of_accepted hreading (hown capture hreading)
  · have hother : ∀ reading ∈ s.reading?, reading.1.name ≠ command.name := by
      rintro ⟨other, capture⟩ hother hname
      rw [eq_of_name_eq (mem_of_reading hother) hc hname] at hother
      exact hreading ⟨capture, hother⟩
    exact reads_of_passes hother (passes_written h hw (otherMark_of_mem_marks hc hother))

end Reads

lemma exists_reads {command : InlineCommand} (hc : command ∈ inlineCommands) :
    ∃ recognise, command.pattern.find = occurrencesFrom recognise 0 0 ∧
      ∀ s : Segment, s.Writable → Reads recognise command s := by
  rcases mem_inlineCommands.1 hc with rfl | rfl | rfl
  · refine ⟨pauseAtHead, rfl, fun s hw => reads_of_looksFor hc looksFor_pauseAtHead hw ?_⟩
    intro capture hreading rest
    cases s <;> simp [Segment.reading?, pause, ego, bold] at hreading
    subst hreading
    exact pauseAtHead_word (Text.digits_ne_nil _) (isWordChar_of_mem_digits _) rest
  · refine ⟨_, rfl, fun s hw => reads_of_looksFor hc (looksFor_spanAtHead (by decide)) hw ?_⟩
    intro capture hreading rest
    cases s <;> simp [Segment.reading?, pause, ego, bold] at hreading
    subst hreading
    exact spanAtHead_written hw rest
  · refine ⟨_, rfl, fun s hw => reads_of_looksFor hc (looksFor_spanAtHead (by decide)) hw ?_⟩
    intro capture hreading rest
    cases s <;> simp [Segment.reading?, pause, ego, bold] at hreading
    subst hreading
    exact spanAtHead_written hw rest

end Builtin

/-! ## Scanning a written line -/

/-- The text of a line of segments. -/
def writtenLine (segments : List Segment) : List Char := segments.flatMap Segment.written

/-- The candidates that segments written from an offset on are. -/
def writtenCandidates : Nat → List Segment → List Candidate
  | _, [] => []
  | offset, s :: rest =>
    (s.candidate? offset).toList ++ writtenCandidates (offset + s.written.length) rest

variable {segments : List Segment}

lemma occurrencesFrom_writtenLine {recognise : List Char → Option HeadMatch}
    {command : InlineCommand} (h : ∀ s ∈ segments, Builtin.Reads recognise command s)
    (offset : Nat) :
    occurrencesFrom recognise offset 0 (writtenLine segments) =
      ((writtenCandidates offset segments).filter (·.command.name = command.name)).map
        Candidate.occurrence := by
  induction segments generalizing offset with
  | nil => rfl
  | cons s rest ih =>
    obtain ⟨hs, hrest⟩ := List.forall_mem_cons.1 h
    rw [writtenLine, List.flatMap_cons, ← writtenLine, hs, ih hrest, writtenCandidates,
      List.filter_append, List.map_append]

lemma mem_writtenCandidates {offset : Nat} {c : Candidate}
    (hc : c ∈ writtenCandidates offset segments) :
    offset ≤ c.start ∧ c.command ∈ Builtin.inlineCommands := by
  induction segments generalizing offset with
  | nil => cases hc
  | cons s rest ih =>
    rcases List.mem_append.1 hc with hc | hc
    · obtain ⟨reading, hr, rfl⟩ := Option.map_eq_some_iff.1 (Option.mem_toList.1 hc)
      exact ⟨Nat.le_refl _, Builtin.mem_of_reading hr⟩
    · obtain ⟨hle, hcommand⟩ := ih hc
      exact ⟨by omega, hcommand⟩

lemma pairwise_writtenCandidates (offset : Nat) :
    (writtenCandidates offset segments).Pairwise fun a b => a.start < b.start := by
  induction segments generalizing offset with
  | nil => exact .nil
  | cons s rest ih =>
    rw [writtenCandidates, List.pairwise_append]
    refine ⟨?_, ih _, ?_⟩
    · cases s.candidate? offset <;> simp
    · intro a ha b hb
      obtain ⟨reading, hr, rfl⟩ := Option.map_eq_some_iff.1 (Option.mem_toList.1 ha)
      have hle := (mem_writtenCandidates hb).1
      have hpos := List.length_pos_iff.2 (Segment.written_ne_nil hr)
      show offset < b.start
      omega

/-- A list parted by labels that are all different is the list in another order. -/
lemma flatMap_filter_perm {α β κ : Type} [DecidableEq κ] (key : α → κ) (label : β → κ)
    {parts : List β} (hlabels : (parts.map label).Nodup) {xs : List α}
    (hxs : ∀ x ∈ xs, key x ∈ parts.map label) :
    (parts.flatMap fun part => xs.filter (key · = label part)).Perm xs := by
  induction parts generalizing xs with
  | nil =>
    rw [List.eq_nil_iff_forall_not_mem.2 fun x hx => List.not_mem_nil (hxs x hx)]
    exact .refl []
  | cons part parts ih =>
    obtain ⟨hpart, hlabels⟩ := List.nodup_cons.1 hlabels
    have hothers : ∀ x ∈ xs.filter fun x => !decide (key x = label part),
        key x ∈ parts.map label := by
      intro x hx
      obtain ⟨hx, hne⟩ := List.mem_filter.1 hx
      exact (List.mem_cons.1 (hxs x hx)).resolve_left (by simpa using hne)
    have hrest : (parts.flatMap fun other => xs.filter (key · = label other)) =
        parts.flatMap fun other =>
          (xs.filter fun x => !decide (key x = label part)).filter (key · = label other) := by
      apply List.flatMap_congr
      intro other hother
      have hne : label other ≠ label part := by
        intro he
        exact hpart (he ▸ List.mem_map_of_mem hother)
      rw [List.filter_filter]
      apply List.filter_congr
      intro x _
      by_cases hx : key x = label other <;> simp [hx, hne]
    rw [List.flatMap_cons, hrest]
    exact ((ih hlabels hothers).append_left _).trans
      (List.filter_append_perm (key · = label part) xs)

lemma candidates_writtenLine (hw : ∀ s ∈ segments, s.Writable) :
    candidates Builtin.inlineCommands (writtenLine segments) = writtenCandidates 0 segments := by
  have hfound : Candidate.all Builtin.inlineCommands (writtenLine segments) =
      Builtin.inlineCommands.flatMap fun command =>
        (writtenCandidates 0 segments).filter (·.command.name = command.name) := by
    apply List.flatMap_congr
    intro command hc
    obtain ⟨recognise, hfind, hreads⟩ := Builtin.exists_reads hc
    rw [hfind, occurrencesFrom_writtenLine fun s hs => hreads s (hw s hs), List.map_map]
    conv_rhs => rw [← List.map_id (List.filter _ _)]
    apply List.map_congr_left
    intro c hmem
    obtain ⟨hmem, hname⟩ := List.mem_filter.1 hmem
    have hcommand := Builtin.eq_of_name_eq hc (mem_writtenCandidates hmem).2
      (of_decide_eq_true hname).symm
    rw [Function.comp_apply, hcommand]
    rfl
  have hkeys : ∀ c ∈ writtenCandidates 0 segments,
      c.command.name ∈ Builtin.inlineCommands.map InlineCommand.name :=
    fun c hc => List.mem_map_of_mem (mem_writtenCandidates hc).2
  refine Candidate.candidates_eq ?_ (pairwise_writtenCandidates 0)
  rw [hfound]
  exact (flatMap_filter_perm (fun c : Candidate => c.command.name) InlineCommand.name
    Builtin.nodup_names_inlineCommands hkeys).symm

lemma keepDisjoint_writtenCandidates {p offset : Nat} (hp : p ≤ offset) :
    keepDisjoint p (writtenCandidates offset segments) = writtenCandidates offset segments := by
  induction segments generalizing p offset with
  | nil => rfl
  | cons s rest ih =>
    rw [writtenCandidates]
    cases hs : s.candidate? offset with
    | none => exact ih (by omega)
    | some c =>
      obtain ⟨reading, -, rfl⟩ := Option.map_eq_some_iff.1 hs
      rw [Option.toList_some, List.singleton_append, keepDisjoint, if_neg (Nat.not_lt.2 hp)]
      exact congrArg _ (ih (Nat.le_refl _))

/-- Raw text in front of the first candidate comes out as it is. -/
lemma assemble_append {offset : Nat} {text rest : List Char} {kept : List Candidate}
    (h : kept = [] ∧ rest = [] ∨ kept.head?.map Candidate.start = some (offset + text.length)) :
    assemble offset (text ++ rest) kept =
      rawSegments text ++ assemble (offset + text.length) rest kept := by
  rcases h with ⟨rfl, rfl⟩ | h
  · rw [List.append_nil, assemble, assemble]
    simp [rawSegments]
  · obtain ⟨c, hc, hstart⟩ := Option.map_eq_some_iff.1 h
    obtain ⟨kept, rfl⟩ := List.head?_eq_some_iff.1 hc
    have hstart : c.occurrence.start = offset + text.length := hstart
    have hcovered : (text ++ rest).drop (text.length + c.occurrence.covered.length) =
        rest.drop c.occurrence.covered.length := by
      rw [← List.drop_drop, List.drop_left]
    simp only [assemble, hstart, Nat.add_sub_cancel_left, Nat.sub_self, List.take_left,
      hcovered, List.take_zero, Nat.zero_add]
    simp [rawSegments]

lemma Builtin.pauseLength_digits (duration : Millis) :
    pauseLength (some (Text.digits duration.count)) = duration := by
  have hword : ∀ word : List Char, word.all Char.isDigit = false →
      Text.digits duration.count ≠ word := by
    rintro word hword rfl
    have hdigits : (Text.digits duration.count).all Char.isDigit = true :=
      List.all_eq_true.2 fun c => Text.isDigit_of_mem_digits
    rw [hdigits] at hword
    cases hword
  have hread : Text.readUpTo Millis.limit (Text.digits duration.count) = some duration.count :=
    Text.readUpTo_digits duration.count_le_limit
  have hcount : Millis.ofNat duration.count = duration :=
    Millis.ext (Nat.min_eq_left duration.count_le_limit)
  rw [pauseLength, if_neg (hword _ (by decide)), if_neg (hword _ (by decide)), hread,
    Option.map_some, Option.getD_some, hcount]

lemma Segment.decode_reading {s : Segment} {command : InlineCommand} {capture : List Char}
    (h : s.reading? = some (command, capture)) : command.decode (some capture) = s := by
  cases s <;> cases h
  · exact congrArg Segment.pause (Builtin.pauseLength_digits _)
  · exact congrArg Segment.ego String.ofList_toList
  · exact congrArg Segment.bold String.ofList_toList

lemma assemble_candidate {offset : Nat} {s : Segment} {c : Candidate}
    (hc : s.candidate? offset = some c) (rest : List Char) (kept : List Candidate) :
    assemble offset (s.written ++ rest) (c :: kept) =
      s :: assemble (offset + s.written.length) rest kept := by
  obtain ⟨⟨command, capture⟩, hr, rfl⟩ := Option.map_eq_some_iff.1 hc
  simp only [assemble, Nat.sub_self, List.take_zero, Nat.zero_add, List.drop_left]
  have hsegment := Segment.decode_reading hr
  simp [rawSegments, Candidate.segment, hsegment, Occurrence.stop]

lemma Segment.Writable.exists_candidate {s : Segment} (h : s.Writable) (hraw : s.isRaw = false)
    (offset : Nat) : ∃ c, s.candidate? offset = some c ∧ c.start = offset := by
  cases s with
  | raw text => cases hraw
  | directive name text => cases h
  | pause duration => exact ⟨_, rfl, rfl⟩
  | ego text => exact ⟨_, rfl, rfl⟩
  | bold text => exact ⟨_, rfl, rfl⟩

/-- A line that does not open with raw text opens with a candidate. -/
lemma head?_writtenCandidates (hw : ∀ s ∈ segments, s.Writable)
    (hhead : ∀ s ∈ segments.head?, s.isRaw = false) (offset : Nat) :
    writtenCandidates offset segments = [] ∧ writtenLine segments = [] ∨
      (writtenCandidates offset segments).head?.map Candidate.start = some offset := by
  cases segments with
  | nil => exact .inl ⟨rfl, rfl⟩
  | cons s rest =>
    obtain ⟨c, hc, hstart⟩ :=
      (hw s List.mem_cons_self).exists_candidate (hhead s rfl) offset
    right
    simp [writtenCandidates, hc, hstart]

lemma assemble_writtenLine (hw : ∀ s ∈ segments, s.Writable)
    (hraw : segments.IsChain fun a b => ¬ (a.isRaw = true ∧ b.isRaw = true)) (offset : Nat) :
    assemble offset (writtenLine segments) (writtenCandidates offset segments) = segments := by
  induction segments generalizing offset with
  | nil => rfl
  | cons s rest ih =>
    obtain ⟨hs, hrest⟩ := List.forall_mem_cons.1 hw
    obtain ⟨hnext, hraw⟩ := List.isChain_cons.1 hraw
    have hbelow := ih hrest hraw (offset + s.written.length)
    rw [writtenLine, List.flatMap_cons, ← writtenLine, writtenCandidates]
    cases hkind : s.isRaw with
    | false =>
      obtain ⟨c, hc, -⟩ := hs.exists_candidate hkind offset
      rw [hc, Option.toList_some, List.singleton_append, assemble_candidate hc, hbelow]
    | true =>
      -- Raw text is no candidate, so the scan takes all of it only if a directive comes next.
      have hhead : ∀ d ∈ rest.head?, d.isRaw = false :=
        fun d hd => Bool.eq_false_iff.2 fun hd' => hnext d hd ⟨hkind, hd'⟩
      cases s with
      | raw text =>
        rw [Segment.written_raw] at hbelow ⊢
        have hsegments : rawSegments text.toList = [.raw text] := by
          simp [rawSegments, hs.1]
        rw [show (Segment.raw text).candidate? offset = none from rfl, Option.toList_none,
          List.nil_append, assemble_append (head?_writtenCandidates hrest hhead _), hbelow,
          hsegments, List.singleton_append]
      | _ => cases hkind

/-- Decoding undoes writing: a line of raw texts and directives decodes to just these segments. -/
theorem parseInline_written {segments : List Segment} (hne : segments ≠ [])
    (hw : ∀ s ∈ segments, s.Writable)
    (hraw : segments.IsChain fun a b => ¬ (a.isRaw = true ∧ b.isRaw = true)) :
    (Parser.builtin.parseInline (String.ofList (writtenLine segments))).1 = segments := by
  have hinline : Parser.builtin.commands.inline = Builtin.inlineCommands := by rfl
  have hscan := assemble_writtenLine hw hraw 0
  rw [Parser.parseInline, CommandSet.parseInline, hinline, String.toList_ofList, scanSegments,
    candidates_writtenLine hw, keepDisjoint_writtenCandidates (Nat.le_refl 0), hscan]
  cases segments with
  | nil => exact absurd rfl hne
  | cons s rest => rfl

theorem parseInline_written_mixed :
    (∀ s ∈ [Segment.raw "a]", .pause (.ofNat Millis.limit), .ego "", .bold "b"], s.Writable) ∧
      (Parser.builtin.parseInline (String.ofList (writtenLine
          [.raw "a]", .pause (.ofNat Millis.limit), .ego "", .bold "b"]))).1 =
        [.raw "a]", .pause (.ofNat Millis.limit), .ego "", .bold "b"] := by
  have hw : ∀ s ∈ [Segment.raw "a]", .pause (.ofNat Millis.limit), .ego "", .bold "b"],
      s.Writable := by
    simp [Segment.Writable]
  exact ⟨hw, parseInline_written (by simp) hw (by simp [Segment.isRaw])⟩

end LessonScript
