import LessonScript.Proofs.LineEndings
import Mathlib.Data.List.Basic

/-!
# A header line by line

The fences of a header are looked for in a text that is not cut into lines. Line by line the format
is this: a line of three hyphens, the header's lines, and a second line of three hyphens, each of
them ended by a line feed. The two readings part where the second fence is the line right below the
first one: the text then goes on to the next fence, and the second one is a line of the header.
-/

namespace LessonScript

namespace Text

/-- The lines of a text that a line feed ends. -/
def endedLines (cs : List Char) : List Line := (cs.splitOn '\n').dropLast.map dropReturn

/-- The text below its first `n` lines. -/
def belowLines (n : Nat) (cs : List Char) : List Char :=
  ['\n'].intercalate ((cs.splitOn '\n').drop n)

variable {cs line rest : List Char}

/-- A text has no line feed, or is a line with its line feed and a text below it. -/
@[elab_as_elim]
lemma lineInduction {motive : List Char → Prop} (last : ∀ cs, '\n' ∉ cs → motive cs)
    (ended : ∀ line rest, '\n' ∉ line → motive rest → motive (line ++ '\n' :: rest))
    (cs : List Char) : motive cs := by
  have hpieces : ∀ pieces : List Line, (∀ piece ∈ pieces, '\n' ∉ piece) →
      motive (['\n'].intercalate pieces) := by
    intro pieces hfree
    induction pieces with
    | nil => exact last _ (by simp)
    | cons piece pieces ih =>
      obtain ⟨hpiece, hpieces⟩ := List.forall_mem_cons.1 hfree
      cases pieces with
      | nil => exact last _ (by simpa using hpiece)
      | cons next pieces =>
        rw [List.intercalate_cons_cons, List.append_assoc]
        exact ended piece _ hpiece (ih hpieces)
  have hcs := hpieces (splitOn '\n' cs) fun _ => notMem_of_mem_splitOn
  rwa [splitOn_eq, List.intercalate_splitOn] at hcs

lemma endedLines_last (h : '\n' ∉ cs) : endedLines cs = [] := by
  rw [endedLines, List.splitOn_eq_singleton h]
  rfl

lemma endedLines_line (h : '\n' ∉ line) (rest : List Char) :
    endedLines (line ++ '\n' :: rest) = dropReturn line :: endedLines rest := by
  rw [endedLines, List.splitOn_append_cons_self_of_not_mem h,
    List.dropLast_cons_of_ne_nil (List.splitOn_ne_nil _ _), List.map_cons]
  rfl

@[simp] lemma belowLines_zero (cs : List Char) : belowLines 0 cs = cs :=
  List.intercalate_splitOn '\n'

lemma belowLines_line (h : '\n' ∉ line) (rest : List Char) (n : Nat) :
    belowLines (n + 1) (line ++ '\n' :: rest) = belowLines n rest := by
  rw [belowLines, List.splitOn_append_cons_self_of_not_mem h, List.drop_succ_cons]
  rfl

/-- Each ended line makes the text below it shorter. -/
lemma length_belowLines_lt {m n : Nat} (hmn : m < n) (hn : n ≤ (endedLines cs).length) :
    (belowLines n cs).length < (belowLines m cs).length := by
  induction cs using lineInduction generalizing m n with
  | last cs h =>
    rw [endedLines_last h] at hn
    exact absurd (Nat.lt_of_lt_of_le hmn hn) (Nat.not_lt_zero m)
  | ended line rest h ih =>
    rw [endedLines_line h, List.length_cons] at hn
    obtain ⟨n, rfl⟩ := Nat.exists_eq_add_one_of_ne_zero (Nat.ne_zero_of_lt hmn)
    have hbelow : (belowLines n rest).length ≤ rest.length := by
      rcases Nat.eq_zero_or_pos n with rfl | hpos
      · simp
      · have hlt := ih hpos (Nat.le_of_succ_le_succ hn)
        rw [belowLines_zero] at hlt
        exact Nat.le_of_lt hlt
    rw [belowLines_line h]
    cases m with
    | zero =>
      rw [belowLines_zero, List.length_append, List.length_cons]
      omega
    | succ m =>
      rw [belowLines_line h]
      exact ih (Nat.lt_of_succ_lt_succ hmn) (Nat.le_of_succ_le_succ hn)

lemma dropReturn_cons_cons (c d : Char) (line : Line) :
    dropReturn (c :: d :: line) = c :: dropReturn (d :: line) := by
  rw [dropReturn, dropReturn, List.getLast?_cons_cons]
  split <;> rfl

lemma eq_or_eq_of_dropReturn {line' : Line} (h : dropReturn line = line') :
    line = line' ∨ line = line' ++ ['\r'] := by
  subst h
  unfold dropReturn
  split
  · rename_i hr
    exact .inr (List.dropLast_append_getLast? '\r' hr).symm
  · exact .inl rfl

lemma textLines_last (h : '\n' ∉ cs) : textLines cs = if cs = [] then [] else [cs] := by
  rw [textLines_eq, splitOn_eq, List.splitOn_eq_singleton h]
  rfl

lemma textLines_line (h : '\n' ∉ line) (rest : List Char) :
    textLines (line ++ '\n' :: rest) = dropReturn line :: textLines rest := by
  obtain ⟨piece, pieces, hp⟩ := List.exists_cons_of_ne_nil (List.splitOn_ne_nil '\n' rest)
  rw [textLines_eq, textLines_eq, splitOn_eq, splitOn_eq,
    List.splitOn_append_cons_self_of_not_mem h, hp]
  rfl

end Text

open Text (Line)

def fence : Line := "---".toList

/-- The metadata that the lines of a header give. -/
def metadataOf (lines : List Line) : Metadata := .ofList (lines.filterMap headerField)

/-- How many lines of a text its header has: those between a fence on the first line and the next
fence, where the first `least` lines below the opening one do not close the header. -/
def linesInHeader? (least : Nat) : List Line → Option Nat
  | [] => none
  | opening :: below =>
    if opening = fence then ((below.drop least).findIdx? (· = fence)).map (· + least) else none

/-- The metadata and the body of a script that is read line by line. -/
def readByLines (least : Nat) (source : List Char) : Metadata × List Char :=
  let lines := Text.endedLines source
  match linesInHeader? least lines with
  | some n => (metadataOf ((lines.drop 1).take n), Text.belowLines (n + 2) source)
  | none => (.empty, source)

lemma readByLines_of_closed {least n : Nat} {source : List Char}
    (h : linesInHeader? least (Text.endedLines source) = some n) :
    readByLines least source =
      (metadataOf (((Text.endedLines source).drop 1).take n), Text.belowLines (n + 2) source) := by
  simp only [readByLines, h]

lemma readByLines_of_open {least : Nat} {source : List Char}
    (h : linesInHeader? least (Text.endedLines source) = none) :
    readByLines least source = (.empty, source) := by
  simp only [readByLines, h]

/-! ## The fences of a text -/

variable {cs line rest body : List Char}

lemma newline_mem_of_afterBreak? (h : afterBreak? cs = some rest) : '\n' ∈ cs := by
  rcases afterBreak?_eq_some h with rfl | rfl <;> simp

lemma newline_mem_of_afterFence? (h : afterFence? cs = some rest) : '\n' ∈ cs := by
  obtain ⟨behind, hb, hr⟩ := Option.bind_eq_some_iff.1 h
  exact (Text.suffix_of_after? hb).subset (newline_mem_of_afterBreak? hr)

lemma afterFence?_last (h : '\n' ∉ cs) : afterFence? cs = none := by
  cases hf : afterFence? cs with
  | none => rfl
  | some rest => exact absurd (newline_mem_of_afterFence? hf) h

lemma afterFence?_fence (hline : Text.dropReturn line = fence) (rest : List Char) :
    afterFence? (line ++ '\n' :: rest) = some rest := by
  rcases Text.eq_or_eq_of_dropReturn hline with rfl | rfl <;> rfl

lemma dropReturn_of_afterFence? (h : '\n' ∉ line)
    (hf : afterFence? (line ++ '\n' :: rest) = some body) : Text.dropReturn line = fence := by
  obtain ⟨behind, hb, hr⟩ := Option.bind_eq_some_iff.1 hf
  have hsplit := Text.after?_eq_some_iff.1 hb
  have hcut := List.splitOn_append_cons_self_of_not_mem h rest
  rcases afterBreak?_eq_some hr with rfl | rfl
  · rw [hsplit, List.splitOn_append_cons_self_of_not_mem (by decide)] at hcut
    rw [← (List.cons.inj hcut).1]
    rfl
  · have hreturn : fence ++ '\r' :: '\n' :: body = (fence ++ ['\r']) ++ '\n' :: body := by simp
    rw [hsplit, ← fence, hreturn, List.splitOn_append_cons_self_of_not_mem (by decide)] at hcut
    rw [← (List.cons.inj hcut).1]
    rfl

lemma afterFence?_line (h : '\n' ∉ line) (rest : List Char) :
    afterFence? (line ++ '\n' :: rest) =
      if Text.dropReturn line = fence then some rest else none := by
  split
  · rename_i hline
    exact afterFence?_fence hline rest
  · rename_i hline
    cases hf : afterFence? (line ++ '\n' :: rest) with
    | none => rfl
    | some body => exact absurd (dropReturn_of_afterFence? h hf) hline

lemma cutAtFence?_last (h : '\n' ∉ cs) : cutAtFence? cs = none := by
  induction cs with
  | nil => rfl
  | cons c cs ih =>
    have hbreak : afterBreak? (c :: cs) = none := by
      cases hb : afterBreak? (c :: cs) with
      | none => rfl
      | some rest => exact absurd (newline_mem_of_afterBreak? hb) h
    rw [cutAtFence?_cons, hbreak, ih (List.not_mem_of_not_mem_cons h)]
    rfl

/-- A header ends with this line if the line below it is a fence, and goes on otherwise. -/
lemma cutAtFence?_line (h : '\n' ∉ line) (rest : List Char) :
    cutAtFence? (line ++ '\n' :: rest) =
      ((afterFence? rest).map (Text.dropReturn line, ·)).or
        ((cutAtFence? rest).map fun found => (line ++ '\n' :: found.1, found.2)) := by
  induction line with
  | nil =>
    rw [List.nil_append, cutAtFence?_cons]
    rfl
  | cons c line ih =>
    have hc : c ≠ '\n' := Ne.symm (List.ne_of_not_mem_cons h)
    rw [List.cons_append, cutAtFence?_cons, ih (List.not_mem_of_not_mem_cons h)]
    by_cases hr : c = '\r' ∧ line = []
    · obtain ⟨rfl, rfl⟩ := hr
      have hhere : afterBreak? ('\r' :: ([] ++ '\n' :: rest)) = some rest := rfl
      have hdrop : Text.dropReturn ['\r'] = [] := rfl
      rw [hhere, Option.bind_some, hdrop]
      cases afterFence? rest <;> simp [Option.map_map, Function.comp_def]
    · have hnone : afterBreak? (c :: (line ++ '\n' :: rest)) = none := by
        unfold afterBreak?
        cases line <;> split <;> simp_all
      have hdrop : Text.dropReturn (c :: line) = c :: Text.dropReturn line := by
        cases line with
        | nil => exact Text.dropReturn_cons (by simpa using hr) []
        | cons d line => exact Text.dropReturn_cons_cons c d line
      rw [hnone, hdrop]
      cases afterFence? rest <;> simp [Option.map_map, Function.comp_def]

/-! ## The two readings -/

lemma filterMap_headerField_textLines (h : '\n' ∉ cs) :
    (Text.textLines cs).filterMap headerField = [cs].filterMap headerField := by
  rw [Text.textLines_last h]
  split
  · rename_i hnil
    rw [hnil]
    rfl
  · rfl

/-- The fields and the body that a cut finds are those up to the first fence below the first
line. -/
lemma map_cutAtFence? (cs : List Char) :
    (cutAtFence? cs).map (fun found =>
        ((Text.textLines found.1).filterMap headerField, found.2)) =
      (((Text.endedLines cs).drop 1).findIdx? (· = fence)).map fun n =>
        (((Text.endedLines cs).take (n + 1)).filterMap headerField,
          Text.belowLines (n + 2) cs) := by
  induction cs using Text.lineInduction with
  | last cs h => rw [cutAtFence?_last h, Text.endedLines_last h]; rfl
  | ended line rest h ih =>
    rw [cutAtFence?_line h, Text.endedLines_line h, List.drop_one, List.tail_cons]
    induction rest using Text.lineInduction with
    | last cs hcs =>
      rw [afterFence?_last hcs, cutAtFence?_last hcs, Text.endedLines_last hcs]
      rfl
    | ended next rest hnext _ =>
      rw [afterFence?_line hnext, Text.endedLines_line hnext, List.findIdx?_cons]
      by_cases hf : Text.dropReturn next = fence
      · rw [if_pos hf, if_pos (decide_eq_true hf)]
        simp only [Option.map_some, Option.some_or, List.take_succ_cons, List.take_zero,
          filterMap_headerField_textLines (Text.newline_notMem_dropReturn h),
          Text.belowLines_line h, Text.belowLines_line hnext, Text.belowLines_zero]
      · rw [Text.endedLines_line hnext, List.drop_one, List.tail_cons] at ih
        -- Both sides put the field of the first line, if it has one, before those of the rest.
        let onto (found : List (String × MetaValue) × List Char) :=
          ([Text.dropReturn line].filterMap headerField ++ found.1, found.2)
        have hmap := congrArg (Option.map onto) ih
        rw [Option.map_map, Option.map_map] at hmap
        rw [if_neg hf, if_neg (by simpa using hf), Option.map_none, Option.none_or, Option.map_map,
          Option.map_map]
        convert hmap using 2
        · funext found
          simp only [Function.comp_apply, Text.textLines_line h, onto, ← List.filterMap_append,
            List.singleton_append]
        · funext n
          simp only [Function.comp_apply, Text.belowLines_line h, onto, ← List.filterMap_append,
            List.singleton_append, List.take_succ_cons]

lemma extractHeader_eq (source : List Char) : extractHeader source = readByLines 1 source := by
  have hread : extractHeader source = (((afterFence? source).bind cutAtFence?).map fun found =>
      (parseHeader found.1, found.2)).getD (.empty, source) := extractHeader_eq_getD source
  rw [hread]
  induction source using Text.lineInduction with
  | last cs h =>
    rw [afterFence?_last h, readByLines, Text.endedLines_last h]
    rfl
  | ended line rest h _ =>
    rw [afterFence?_line h, readByLines, Text.endedLines_line h, linesInHeader?]
    by_cases hline : Text.dropReturn line = fence
    · have hcut := congrArg (Option.map (Prod.map Table.ofList id)) (map_cutAtFence? rest)
      rw [Option.map_map, Option.map_map] at hcut
      have hparse : (cutAtFence? rest).map (fun found => (parseHeader found.1, found.2)) = _ := hcut
      rw [if_pos hline, if_pos hline, Option.bind_some, hparse]
      cases ((Text.endedLines rest).drop 1).findIdx? (· = fence) with
      | none => rfl
      | some n =>
        simp only [Option.map_some, Option.getD_some, List.drop_one, List.tail_cons,
          Text.belowLines_line h]
        rfl
    · rw [if_neg hline, if_neg hline]
      rfl

lemma le_of_linesInHeader? {least n : Nat} {lines : List Line}
    (h : linesInHeader? least lines = some n) : least ≤ n ∧ n + 2 ≤ lines.length := by
  unfold linesInHeader? at h
  split at h
  · cases h
  · rename_i opening below
    split at h
    · obtain ⟨i, hi, rfl⟩ := Option.map_eq_some_iff.1 h
      obtain ⟨hlt, -⟩ := List.findIdx?_eq_some_iff_getElem.1 hi
      rw [List.length_drop] at hlt
      rw [List.length_cons]
      omega
    · cases h

lemma linesInHeader?_zero {lines : List Line} (h : ¬ [fence, fence] <+: lines) :
    linesInHeader? 0 lines = linesInHeader? 1 lines := by
  rcases lines with _ | ⟨opening, _ | ⟨next, below⟩⟩
  · rfl
  · rfl
  · rw [linesInHeader?, linesInHeader?]
    by_cases hopening : opening = fence
    · have hnext : next ≠ fence := by
        rintro rfl
        exact h ⟨below, by rw [hopening]; rfl⟩
      rw [if_pos hopening, if_pos hopening, List.drop_zero, List.findIdx?_cons,
        if_neg (by simpa using hnext), Option.map_map]
      rfl
    · rw [if_neg hopening, if_neg hopening]

/-- Of two fences at the head the second one closes the header in one reading only, and the bodies
are not even of one length. -/
lemma readByLines_ne {source : List Char} (h : [fence, fence] <+: Text.endedLines source) :
    readByLines 1 source ≠ readByLines 0 source := by
  obtain ⟨below, hlines⟩ := h
  have hlen : 2 ≤ (Text.endedLines source).length := by simp [← hlines]
  have hclosed : linesInHeader? 0 (Text.endedLines source) = some 0 := by rw [← hlines]; rfl
  intro heq
  have hbody := congrArg (fun read => read.2.length) heq
  rw [readByLines_of_closed hclosed] at hbody
  cases hn : linesInHeader? 1 (Text.endedLines source) with
  | none =>
    rw [readByLines_of_open hn] at hbody
    have hlt := Text.length_belowLines_lt (by decide : 0 < 2) hlen
    rw [Text.belowLines_zero] at hlt
    exact Nat.ne_of_gt hlt hbody
  | some n =>
    rw [readByLines_of_closed hn] at hbody
    obtain ⟨hle, hn⟩ := le_of_linesInHeader? hn
    exact Nat.ne_of_lt (Text.length_belowLines_lt (by omega : 2 < n + 2) hn) hbody

/-- A script is read as its lines say, but for the line right below the opening fence, which is
taken for a line of the header whatever it is. So the format is kept by the scripts that do not
begin with two fences, and by no others. -/
theorem extractHeader_by_lines (source : List Char) :
    extractHeader source = readByLines 1 source ∧
      (extractHeader source = readByLines 0 source ↔
        ¬ [fence, fence] <+: Text.endedLines source) := by
  refine ⟨extractHeader_eq source, ?_⟩
  rw [extractHeader_eq]
  constructor
  · exact fun heq h => readByLines_ne h heq
  · intro h
    rw [readByLines, readByLines, linesInHeader?_zero h]

/-- A script with an empty header loses the text up to the next fence to its metadata. -/
theorem extractHeader_empty_header :
    let source := "---\n---\na: 1\n---\nrest".toList
    let read := extractHeader source
    let expected := readByLines 0 source
    read.1.keys = ["a"] ∧ read.2 = "rest".toList ∧
      expected.1.keys = [] ∧ expected.2 = "a: 1\n---\nrest".toList := by
  decide

end LessonScript
