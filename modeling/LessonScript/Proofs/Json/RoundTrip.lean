import LessonScript.Json.Reader
import LessonScript.Proofs.Json.Scan
import Mathlib.Data.List.TakeWhile

/-!
# Reading written data back

A reader that comes upon written data goes on behind it as if it had been given the data at once.
So reading a written text gives the data, for all data whose numbers are integers of 64 bits.
-/

namespace LessonScript

namespace Json

/-! ## Tokens -/

lemma tokensUpTo_succ {n : Nat} {cs : List Char} {ts : List Token}
    (h : tokensUpTo n cs = some ts) : tokensUpTo (n + 1) cs = some ts := by
  induction n generalizing cs ts with
  | zero =>
    rw [tokensUpTo] at h
    split at h
    · rename_i hspace
      have hdrop : cs.dropWhile isSpace = [] :=
        List.dropWhile_eq_nil_iff.2 (List.all_eq_true.1 hspace)
      rw [tokensUpTo, hdrop, ← h]
    · cases h
  | succ n ih =>
    rw [tokensUpTo] at h ⊢
    cases hdrop : cs.dropWhile isSpace with
    | nil => rwa [hdrop] at h
    | cons c rest =>
      rw [hdrop] at h
      obtain ⟨⟨token, behind⟩, hscan, h⟩ := Option.bind_eq_some_iff.1 h
      obtain ⟨ts', hrest, h⟩ := Option.bind_eq_some_iff.1 h
      simp [hscan, ih hrest, h]

lemma tokensUpTo_of_le {n m : Nat} (hle : n ≤ m) {cs : List Char} {ts : List Token}
    (h : tokensUpTo n cs = some ts) : tokensUpTo m cs = some ts := by
  induction hle with
  | refl => exact h
  | step _ ih => exact tokensUpTo_succ ih

variable {cs rest : List Char} {ts : List Token}

lemma tokens_space {c : Char} (hc : isSpace c = true) (h : tokens cs = some ts) :
    tokens (c :: cs) = some ts := by
  have hsucc : tokensUpTo (cs.length + 1) cs = some ts := tokensUpTo_succ h
  rw [tokensUpTo] at hsucc
  rw [tokens, List.length_cons, tokensUpTo, List.dropWhile_cons_of_pos hc]
  exact hsucc

lemma tokens_token {c : Char} (hc : isSpace c = false) {token : Token}
    (hscan : scanToken (c :: cs) = some (token, rest)) (hlen : rest.length ≤ cs.length)
    (h : tokens rest = some ts) : tokens (c :: cs) = some (token :: ts) := by
  rw [tokens, List.length_cons, tokensUpTo, List.dropWhile_cons_of_neg (by simp [hc])]
  simp only [hscan, Option.bind_eq_bind, Option.bind_some]
  rw [tokensUpTo_of_le hlen h]
  rfl

/-! ## Readers -/

namespace Reader

/-- The reader reads the text to its end and then holds the data. -/
def Reads (r : Reader) (cs : List Char) (result : Data) : Prop :=
  ∃ ts end_, tokens cs = some ts ∧ ts.foldlM feed r = some end_ ∧ end_.expected = .nothing ∧
    end_.result = result

variable {r next : Reader} {result : Data}

lemma Reads.space {c : Char} (hc : isSpace c = true) (h : r.Reads cs result) :
    r.Reads (c :: cs) result := by
  obtain ⟨ts, last, hts, hrun⟩ := h
  exact ⟨ts, last, tokens_space hc hts, hrun⟩

lemma Reads.token {c : Char} {tail : List Char} {token : Token}
    (hscan : scanToken (c :: tail ++ cs) = some (token, cs)) (hc : isSpace c = false)
    (hfeed : r.feed token = some next) (h : next.Reads cs result) :
    r.Reads (c :: tail ++ cs) result := by
  obtain ⟨ts, last, hts, hrun, hlast⟩ := h
  have hlen : cs.length ≤ (tail ++ cs).length := by simp
  refine ⟨token :: ts, last, tokens_token hc hscan hlen hts, ?_, hlast⟩
  rw [List.foldlM_cons, hfeed]
  exact hrun

lemma Reads.mark {c : Char} {token : Token} (hscan : ∀ cs, scanToken (c :: cs) = some (token, cs))
    (hc : isSpace c = false) (hfeed : r.feed token = some next) (h : next.Reads cs result) :
    r.Reads (c :: cs) result := by
  have htoken : r.Reads (c :: [] ++ cs) result := h.token (hscan cs) hc hfeed
  exact htoken

lemma Reads.textLiteral (s : String) (hfeed : r.feed (.text (some s)) = some next)
    (h : next.Reads cs result) : r.Reads (textLiteral s ++ cs) result :=
  h.token (scanToken_textLiteral s cs) rfl hfeed

lemma Reads.lineBreak (depth : Nat) (h : r.Reads cs result) :
    r.Reads (lineBreak depth ++ cs) result := by
  have hspaces : ∀ n, r.Reads (List.replicate n ' ' ++ cs) result := by
    intro n
    induction n with
    | zero => exact h
    | succ n ih => exact ih.space rfl
  exact (hspaces (2 * depth)).space rfl

def AwaitsValue (r : Reader) : Prop := r.expected = .value ∨ r.expected = .firstItem

lemma AwaitsValue.feed (h : r.AwaitsValue) {token : Token} (htoken : token ≠ .closeList) :
    r.feed token = r.begin? token := by
  obtain ⟨frames, expected, last⟩ := r
  rcases h with rfl | rfl
  · rfl
  · cases token with
    | closeList => exact absurd rfl htoken
    | _ => rfl

lemma give_mk (r : Reader) (expected : Expected) (d : Data) :
    give ⟨r.frames, expected, r.result⟩ d = r.give d := rfl

/-- Wherever a value may stand, the written data is read as the data. -/
def Passes (d : Data) : Prop :=
  ∀ (depth : Nat) {r : Reader} {rest : List Char} {result : Data}, r.AwaitsValue → Ended rest →
    (r.give d).Reads rest result → r.Reads (write depth d ++ rest) result

lemma ended_lineBreak (depth : Nat) (cs : List Char) : Ended (Json.lineBreak depth ++ cs) := by
  intro c hc
  right
  simpa [Json.lineBreak, eq_comm] using hc

lemma ended_writeItems (depth : Nat) (items : List Data) (h : Ended cs) :
    Ended (writeItems depth items ++ cs) := by
  cases items with
  | nil => exact h
  | cons item items =>
    intro c hc
    left
    simpa [writeItems, eq_comm] using hc

lemma Reads.items {items : List Data} (hitems : ∀ item ∈ items, Passes item) (depth : Nat)
    {read : List Data} {outer : List Frame} {last : Data} (hcs : Ended cs)
    (h : Reads ⟨.list (items.reverse ++ read) :: outer, .itemEnd, last⟩ cs result) :
    Reads ⟨.list read :: outer, .itemEnd, last⟩ (writeItems depth items ++ cs) result := by
  induction items generalizing read with
  | nil => exact h
  | cons item items ih =>
    obtain ⟨hitem, hitems⟩ := List.forall_mem_cons.1 hitems
    rw [List.reverse_cons, List.append_assoc] at h
    have hrest := ih hitems h
    have hvalue := hitem depth (r := ⟨.list read :: outer, .value, last⟩) (.inl rfl)
      (ended_writeItems depth items hcs) hrest
    rw [writeItems]
    simp only [List.cons_append, List.append_assoc]
    exact (hvalue.lineBreak depth).mark (fun _ => rfl) rfl rfl

/-- What a record has at the head of a text: a key, a colon and a value. -/
lemma Reads.field {key : String} {value : Data} (hvalue : Passes value) (depth : Nat)
    {read : List (Option String × Data)} {outer : List Frame} {last : Data}
    (hr : r = ⟨.record read none :: outer, .firstKey, last⟩ ∨
      r = ⟨.record read none :: outer, .key, last⟩) (hcs : Ended cs)
    (h : Reads ⟨.record ((some key, value) :: read) none :: outer, .fieldEnd, last⟩ cs result) :
    r.Reads (Json.textLiteral key ++ ": ".toList ++ write depth value ++ cs) result := by
  have hgiven : Reads ⟨.record read (some key) :: outer, .value, last⟩ (write depth value ++ cs)
      result := hvalue depth (.inl rfl) hcs h
  have hcolon : Reads ⟨.record read (some key) :: outer, .colon, last⟩
      (':' :: ' ' :: (write depth value ++ cs)) result :=
    Reads.mark (fun _ => rfl) rfl rfl (hgiven.space rfl)
  rw [List.append_assoc, List.append_assoc]
  refine Reads.textLiteral key ?_ hcolon
  rcases hr with rfl | rfl <;> rfl

lemma ended_writeFields (depth : Nat) (fields : List (String × Data)) (h : Ended cs) :
    Ended (writeFields depth fields ++ cs) := by
  cases fields with
  | nil => exact h
  | cons field fields =>
    intro c hc
    left
    simpa [writeFields, eq_comm] using hc

lemma Reads.fields {fields : List (String × Data)} (hfields : ∀ field ∈ fields, Passes field.2)
    (depth : Nat) {read : List (Option String × Data)} {outer : List Frame} {last : Data}
    (hcs : Ended cs)
    (h : Reads ⟨.record ((fields.map (Prod.map some id)).reverse ++ read) none :: outer,
      .fieldEnd, last⟩ cs result) :
    Reads ⟨.record read none :: outer, .fieldEnd, last⟩ (writeFields depth fields ++ cs)
      result := by
  induction fields generalizing read with
  | nil => exact h
  | cons field fields ih =>
    obtain ⟨hvalue, hfields⟩ := List.forall_mem_cons.1 hfields
    rw [List.map_cons, List.reverse_cons, List.append_assoc] at h
    have hfield := Reads.field hvalue depth (.inr rfl) (ended_writeFields depth fields hcs)
      (ih hfields h)
    rw [writeFields]
    simp only [List.cons_append, List.append_assoc] at hfield ⊢
    exact (hfield.lineBreak depth).mark (fun _ => rfl) rfl rfl

lemma recordData_map (fields : List (String × Data)) :
    recordData (fields.map (Prod.map some id)) = .record fields := by
  have hkeys : (fields.map (Prod.map some id)).mapM
      (fun (field : Option String × Data) => field.1.map (·, field.2)) = some fields := by
    induction fields with
    | nil => rfl
    | cons field fields ih => simp [List.mapM_cons, ih]
  simp only [recordData]
  rw [hkeys]

lemma passes_list {items : List Data} (hitems : ∀ item ∈ items, Passes item) :
    Passes (.list items) := by
  intro depth r rest result hr hrest h
  have hopen : r.feed .openList = some ⟨.list [] :: r.frames, .firstItem, r.result⟩ :=
    hr.feed (by simp)
  cases items with
  | nil =>
    rw [write]
    exact (h.mark (fun _ => rfl) rfl rfl).mark (fun _ => rfl) rfl hopen
  | cons item items =>
    obtain ⟨hitem, hitems⟩ := List.forall_mem_cons.1 hitems
    have hclose : Reads ⟨.list (items.reverse ++ [item]) :: r.frames, .itemEnd, r.result⟩
        (']' :: rest) result := by
      refine h.mark (fun _ => rfl) rfl ?_
      simp [feed, close, give_mk]
    have hitems := Reads.items hitems (depth + 1) (ended_lineBreak depth _)
      (hclose.lineBreak depth)
    have hfirst := hitem (depth + 1)
      (r := ⟨.list [] :: r.frames, .firstItem, r.result⟩) (.inr rfl)
      (ended_writeItems _ _ (ended_lineBreak depth _)) hitems
    rw [write]
    simp only [List.cons_append, List.append_assoc, List.nil_append]
    exact (hfirst.lineBreak _).mark (fun _ => rfl) rfl hopen

lemma passes_record {fields : List (String × Data)} (hfields : ∀ field ∈ fields, Passes field.2) :
    Passes (.record fields) := by
  intro depth r rest result hr hrest h
  have hopen : r.feed .openRecord = some ⟨.record [] none :: r.frames, .firstKey, r.result⟩ :=
    hr.feed (by simp)
  cases fields with
  | nil =>
    rw [write]
    exact (h.mark (fun _ => rfl) rfl rfl).mark (fun _ => rfl) rfl hopen
  | cons field fields =>
    obtain ⟨hvalue, hfields⟩ := List.forall_mem_cons.1 hfields
    have hclose : Reads ⟨.record ((fields.map (Prod.map some id)).reverse ++
        [(some field.1, field.2)]) none :: r.frames, .fieldEnd, r.result⟩ ('\x7d' :: rest)
        result := by
      refine h.mark (fun _ => rfl) rfl ?_
      have hdata : recordData ((some field.1, field.2) :: fields.map (Prod.map some id)) =
          .record (field :: fields) := recordData_map (field :: fields)
      simp [feed, close, give_mk, hdata]
    have hfields := Reads.fields hfields (depth + 1) (ended_lineBreak depth _)
      (hclose.lineBreak depth)
    have hfirst := Reads.field hvalue (depth + 1)
      (r := ⟨.record [] none :: r.frames, .firstKey, r.result⟩) (.inl rfl)
      (ended_writeFields _ _ (ended_lineBreak depth _)) hfields
    rw [write]
    simp only [List.cons_append, List.append_assoc, List.nil_append] at hfirst ⊢
    exact (hfirst.lineBreak _).mark (fun _ => rfl) rfl hopen

lemma isSpace_of_isDigit {c : Char} (h : c.isDigit = true) : isSpace c = false := by
  cases hs : isSpace c with
  | false => rfl
  | true =>
    simp only [isSpace, Bool.or_eq_true, beq_iff_eq] at hs
    rcases hs with ((rfl | rfl) | rfl) | rfl <;> exact absurd h (by decide)

/-- A scalar is one token, which the reader takes for its data. -/
lemma passes_scalar {d : Data}
    (hne : ∀ depth, ∃ c tail, write depth d = c :: tail ∧ isSpace c = false)
    (hscan : ∀ depth rest, Ended rest →
      scanToken (write depth d ++ rest) = some (.scalar d, rest)) :
    Passes d := by
  intro depth r rest result hr hrest h
  obtain ⟨c, tail, hwrite, hc⟩ := hne depth
  have hscan := hscan depth rest hrest
  rw [hwrite] at hscan ⊢
  exact h.token hscan hc (hr.feed (by simp))

lemma passes_int {n : Int} (hn : Data.IsWord n) : Passes (.int n) := by
  apply passes_scalar
  · intro depth
    rw [write, Text.toList_toString_int]
    by_cases hneg : n < 0
    · exact ⟨'-', _, by rw [if_pos hneg]; rfl, rfl⟩
    · obtain ⟨c, cs, hcons⟩ := List.exists_cons_of_ne_nil (Text.digits_ne_nil n.natAbs)
      refine ⟨c, cs, by rw [if_neg hneg, hcons]; rfl, ?_⟩
      have hc : c ∈ Text.digits n.natAbs := by rw [hcons]; exact List.mem_cons_self
      exact isSpace_of_isDigit (Text.isDigit_of_mem_digits hc)
  · intro depth rest hrest
    exact scanToken_int hn hrest

/-- Data that its text tells in full is read as it was written. -/
lemma passes_of_exact {d : Data} (h : d.Exact) : Passes d := by
  induction h with
  | null =>
    refine passes_scalar (fun _ => ⟨'n', _, rfl, rfl⟩) fun _ rest _ => ?_
    exact congrArg (Option.map _) (Text.after?_append "ull".toList rest)
  | bool b =>
    cases b with
    | true =>
      refine passes_scalar (fun _ => ⟨'t', _, rfl, rfl⟩) fun _ rest _ => ?_
      exact congrArg (Option.map _) (Text.after?_append "rue".toList rest)
    | false =>
      refine passes_scalar (fun _ => ⟨'f', _, rfl, rfl⟩) fun _ rest _ => ?_
      exact congrArg (Option.map _) (Text.after?_append "alse".toList rest)
  | int hn => exact passes_int hn
  | text s =>
    intro depth r rest result hr _ h
    rw [write]
    exact h.textLiteral s (hr.feed (by simp))
  | list _ ih => exact passes_list ih
  | record _ ih => exact passes_record ih

end Reader

/-- Written data is read back, for all data that its text can tell. -/
lemma read?_print {d : Data} (h : d.Exact) : read? (print d) = some d := by
  have hend : (Reader.start.give d).Reads [] d := ⟨[], _, rfl, rfl, rfl, rfl⟩
  obtain ⟨ts, last, hts, hrun, hlast, hresult⟩ :=
    Reader.passes_of_exact h 0 (r := .start) (.inl rfl) (by simp [Ended]) hend
  rw [List.append_nil] at hts
  rw [read?, print, String.toList_ofList, hts, Option.bind_some, ofTokens?, hrun]
  simp [hlast, hresult]

end Json
end LessonScript
