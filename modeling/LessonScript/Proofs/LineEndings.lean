import LessonScript.Parser
import LessonScript.Proofs.Text.Lines

/-!
# Line endings

The fences of the header, the lines of the header and the lines of the body are cut in three ways
of their own, and each takes a carriage return before a line feed as part of the line ending. A
script without carriage returns is therefore read in the same way when some of its line feeds
get one.
-/

namespace LessonScript

/-- The second text is the first one with a carriage return put before some of its line feeds. -/
inductive Returned : List Char → List Char → Prop
  | nil : Returned [] []
  | same (c : Char) {s t : List Char} (h : Returned s t) : Returned (c :: s) (c :: t)
  | added {s t : List Char} (h : Returned s t) : Returned ('\n' :: s) ('\r' :: '\n' :: t)

variable {s t : List Char}

lemma Text.CutsLines.eq_of_returned {cut : List Char → List Line} (hcut : CutsLines cut)
    (h : Returned s t) (hs : '\r' ∉ s) : cut t = cut s := by
  induction h with
  | nil => rfl
  | same c h ih =>
    have hr : c ≠ '\r' := Ne.symm (List.ne_of_not_mem_cons hs)
    have hrest := ih (List.not_mem_of_not_mem_cons hs)
    by_cases hn : c = '\n'
    · subst hn
      rw [hcut.feed, hcut.feed, hrest]
    · rw [hcut.char c _ hn hr, hcut.char c _ hn hr, hrest]
  | added h ih => rw [hcut.returned, hcut.feed, ih (List.not_mem_of_not_mem_cons hs)]

section Relations

variable {α β γ δ : Type} {r : α → β → Prop} {q : γ → δ → Prop} {x : Option α} {y : Option β}

lemma rel_bind (h : Option.Rel r x y) {f : α → Option γ} {g : β → Option δ}
    (hfg : ∀ a b, x = some a → r a b → Option.Rel q (f a) (g b)) :
    Option.Rel q (x.bind f) (y.bind g) := by
  cases h with
  | none => exact .none
  | some h => exact hfg _ _ rfl h

lemma rel_map (h : Option.Rel r x y) {f : α → γ} {g : β → δ}
    (hfg : ∀ a b, r a b → q (f a) (g b)) : Option.Rel q (x.map f) (y.map g) := by
  cases h with
  | none => exact .none
  | some h => exact .some (hfg _ _ h)

end Relations

/-! ## What the readers of a header leave -/

section Parts

variable {cs rest header body : List Char}

lemma Text.suffix_of_after? {mark : List Char} (h : after? mark cs = some rest) :
    rest <:+ cs := by
  rw [after?_eq_some_iff.1 h]
  exact List.suffix_append mark rest

lemma suffix_of_afterBreak? (h : afterBreak? cs = some rest) : rest <:+ cs := by
  rcases afterBreak?_eq_some h with rfl | rfl
  · exact List.suffix_append ['\n'] rest
  · exact List.suffix_append ['\r', '\n'] rest

lemma suffix_of_afterFence? (h : afterFence? cs = some rest) : rest <:+ cs := by
  obtain ⟨line, hl, hr⟩ := Option.bind_eq_some_iff.1 h
  exact (suffix_of_afterBreak? hr).trans (Text.suffix_of_after? hl)

lemma cutAtFence?_cons (c : Char) (cs : List Char) :
    cutAtFence? (c :: cs) =
      (((afterBreak? (c :: cs)).bind afterFence?).map ([], ·)).or
        ((cutAtFence? cs).map fun found => (c :: found.1, found.2)) := by
  rw [cutAtFence?]
  cases (afterBreak? (c :: cs)).bind afterFence? <;> rfl

lemma split_of_cutAtFence? (h : cutAtFence? cs = some (header, body)) :
    header <+: cs ∧ body <:+ cs := by
  induction cs generalizing header with
  | nil => cases h
  | cons c cs ih =>
    rw [cutAtFence?_cons, Option.or_eq_some_iff] at h
    rcases h with h | ⟨-, h⟩
    · obtain ⟨found, hf, he⟩ := Option.map_eq_some_iff.1 h
      obtain ⟨line, hl, hr⟩ := Option.bind_eq_some_iff.1 hf
      cases he
      exact ⟨List.nil_prefix, (suffix_of_afterFence? hr).trans (suffix_of_afterBreak? hl)⟩
    · obtain ⟨⟨header, body⟩, hp, he⟩ := Option.map_eq_some_iff.1 h
      cases he
      obtain ⟨hh, hb⟩ := ih hp
      exact ⟨(List.prefix_cons_inj c).2 hh, hb.trans (List.suffix_cons c cs)⟩

/-- The text of a header and the body behind it, for a script with a complete header. -/
def headerAndBody? (source : List Char) : Option (List Char × List Char) :=
  (afterFence? source).bind cutAtFence?

lemma extractHeader_eq_getD (source : List Char) :
    extractHeader source =
      ((headerAndBody? source).map fun found => (parseHeader found.1, found.2)).getD
        (.empty, source) := by
  rw [extractHeader, headerAndBody?]
  cases (afterFence? source).bind cutAtFence? <;> rfl

lemma subset_of_headerAndBody? (h : headerAndBody? cs = some (header, body)) :
    header ⊆ cs ∧ body ⊆ cs := by
  obtain ⟨rest, hr, hc⟩ := Option.bind_eq_some_iff.1 h
  obtain ⟨hh, hb⟩ := split_of_cutAtFence? hc
  have hs := (suffix_of_afterFence? hr).subset
  exact ⟨fun _ hm => hs (hh.subset hm), fun _ hm => hs (hb.subset hm)⟩

end Parts

/-! ## Reading both spellings side by side -/

namespace Returned

lemma rel_after? {mark : List Char} (hn : '\n' ∉ mark) (hr : '\r' ∉ mark) (h : Returned s t) :
    Option.Rel Returned (Text.after? mark s) (Text.after? mark t) := by
  induction mark generalizing s t with
  | nil => exact .some h
  | cons m mark ih =>
    have hrest : ∀ {u v : List Char}, Returned u v →
        Option.Rel Returned (Text.after? mark u) (Text.after? mark v) :=
      ih (List.not_mem_of_not_mem_cons hn) (List.not_mem_of_not_mem_cons hr)
    cases h with
    | nil => exact .none
    | same c h =>
      rw [Text.after?, Text.after?]
      split
      · exact hrest h
      · exact .none
    | added h =>
      rw [Text.after?, Text.after?, if_neg (Ne.symm (List.ne_of_not_mem_cons hn)),
        if_neg (Ne.symm (List.ne_of_not_mem_cons hr))]
      exact .none

lemma rel_afterBreak? (h : Returned s t) (hs : '\r' ∉ s) :
    Option.Rel Returned (afterBreak? s) (afterBreak? t) := by
  cases h with
  | nil => exact .none
  | same c h =>
    by_cases hn : c = '\n'
    · subst hn
      exact .some h
    · have hr : c ≠ '\r' := Ne.symm (List.ne_of_not_mem_cons hs)
      have hnone : ∀ cs, afterBreak? (c :: cs) = none := by
        intro cs
        unfold afterBreak?
        split <;> simp_all
      rw [hnone, hnone]
      exact .none
  | added h => exact .some h

lemma rel_afterFence? (h : Returned s t) (hs : '\r' ∉ s) :
    Option.Rel Returned (afterFence? s) (afterFence? t) := by
  apply rel_bind (h.rel_after? (by decide) (by decide))
  intro rest rest' hrest hr
  exact hr.rel_afterBreak? fun hm => hs ((Text.suffix_of_after? hrest).subset hm)

lemma rel_nextFence? (h : Returned s t) (hs : '\r' ∉ s) :
    Option.Rel Returned ((afterBreak? s).bind afterFence?) ((afterBreak? t).bind afterFence?) := by
  apply rel_bind (h.rel_afterBreak? hs)
  intro rest rest' hrest hr
  exact hr.rel_afterFence? fun hm => hs ((suffix_of_afterBreak? hrest).subset hm)

/-- A header and the body behind it, written with other line endings. -/
def Both (p q : List Char × List Char) : Prop := Returned p.1 q.1 ∧ Returned p.2 q.2

/-- The closing fence is found in both texts or in neither, and at the same place. -/
lemma rel_cutAtFence? (h : Returned s t) (hs : '\r' ∉ s) :
    Option.Rel Both (cutAtFence? s) (cutAtFence? t) := by
  induction h with
  | nil => exact .none
  | @same c s t h ih =>
    have hhere := (h.same c).rel_nextFence? hs
    have hbelow := ih (List.not_mem_of_not_mem_cons hs)
    rw [cutAtFence?_cons, cutAtFence?_cons]
    generalize (afterBreak? (c :: s)).bind afterFence? = x at hhere ⊢
    generalize (afterBreak? (c :: t)).bind afterFence? = y at hhere ⊢
    cases hhere with
    | some hb => exact .some ⟨.nil, hb⟩
    | none => exact rel_map hbelow fun p q hp => ⟨hp.1.same c, hp.2⟩
  | @added s t h ih =>
    have hrest := List.not_mem_of_not_mem_cons hs
    have hhere := h.rel_afterFence? hrest
    have hbelow := ih hrest
    -- The second text has two places where this line ending may begin, and both say the same.
    rw [cutAtFence?_cons, cutAtFence?_cons, cutAtFence?_cons]
    simp only [afterBreak?, Option.bind_some]
    generalize afterFence? s = x at hhere ⊢
    generalize afterFence? t = y at hhere ⊢
    cases hhere with
    | some hb => exact .some ⟨.nil, hb⟩
    | none =>
      simp only [Option.map_none, Option.none_or, Option.map_map]
      exact rel_map hbelow fun p q hp => ⟨hp.1.added, hp.2⟩

lemma rel_headerAndBody? (h : Returned s t) (hs : '\r' ∉ s) :
    Option.Rel Both (headerAndBody? s) (headerAndBody? t) := by
  apply rel_bind (h.rel_afterFence? hs)
  intro rest rest' hrest hr
  exact hr.rel_cutAtFence? fun hm => hs ((suffix_of_afterFence? hrest).subset hm)

lemma bodyLines_eq (h : Returned s t) (hs : '\r' ∉ s) : Text.bodyLines t = Text.bodyLines s :=
  Text.cutsLines_bodyLines.eq_of_returned h hs

lemma parseHeader_eq (h : Returned s t) (hs : '\r' ∉ s) : parseHeader t = parseHeader s := by
  rw [parseHeader, Text.cutsLines_textLines.eq_of_returned h hs]
  rfl

lemma extractHeader_eq (h : Returned s t) (hs : '\r' ∉ s) :
    (extractHeader t).1 = (extractHeader s).1 ∧
      Text.bodyLines (extractHeader t).2 = Text.bodyLines (extractHeader s).2 := by
  have hrel := h.rel_headerAndBody? hs
  rw [extractHeader_eq_getD, extractHeader_eq_getD]
  cases hx : headerAndBody? s with
  | none =>
    rw [hx] at hrel
    generalize headerAndBody? t = y at hrel ⊢
    cases hrel
    exact ⟨rfl, h.bodyLines_eq hs⟩
  | some found =>
    obtain ⟨hh, hb⟩ := subset_of_headerAndBody? hx
    rw [hx] at hrel
    generalize headerAndBody? t = y at hrel ⊢
    cases hrel with
    | some hp =>
      exact ⟨hp.1.parseHeader_eq fun hm => hs (hh hm), hp.2.bodyLines_eq fun hm => hs (hb hm)⟩

end Returned

/-- Carriage returns before line feeds change neither what a script says nor where its header
ends. -/
theorem parse_of_returned (registry : Registry) {s t : String} (hs : '\r' ∉ s.toList)
    (h : Returned s.toList t.toList) :
    ((Parser.ofRegistry registry).parse t).1 = ((Parser.ofRegistry registry).parse s).1 ∧
      Option.Rel (fun p q => Returned p.1 q.1 ∧ Returned p.2 q.2)
        (headerAndBody? s.toList) (headerAndBody? t.toList) := by
  obtain ⟨hm, hb⟩ := h.extractHeader_eq hs
  refine ⟨?_, h.rel_headerAndBody? hs⟩
  simp only [Parser.parse, CommandSet.parse, hm, hb]

theorem parse_mixed_endings :
    let s := "---\nn: 1\n---\n# SCENE: a\nHi\n"
    let t := "---\r\nn: 1\n---\r\n# SCENE: a\r\nHi\n"
    '\r' ∉ s.toList ∧ Returned s.toList t.toList ∧
      ((Parser.ofRegistry .builtin).parse t).1 = ((Parser.ofRegistry .builtin).parse s).1 ∧
      Option.Rel (fun p q => Returned p.1 q.1 ∧ Returned p.2 q.2)
        (headerAndBody? s.toList) (headerAndBody? t.toList) := by
  intro s t
  have hs : '\r' ∉ s.toList := by decide
  have h : Returned s.toList t.toList := by
    simp only [s, t, String.toList]
    repeat (first | exact .nil | apply Returned.added | apply Returned.same)
  exact ⟨hs, h, parse_of_returned .builtin hs h⟩

end LessonScript
