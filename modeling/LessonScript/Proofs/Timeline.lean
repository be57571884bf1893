import LessonScript.Timeline
import Mathlib.Algebra.GroupWithZero.Nat
import Mathlib.Data.List.Basic
import Mathlib.Tactic.Common

/-!
# Timelines and their offsets

The entries of a timeline are the elements that are no pauses, with their places, and the offset
of an entry is the sum of the waits up to it, as far as durations go.
-/

namespace LessonScript
namespace Timeline

lemma entriesFrom_pause (timing : Timing) (index : Nat) (due offset duration : Millis)
    (rest : List Element) :
    entriesFrom timing index due offset (.pause duration :: rest) =
      entriesFrom timing (index + 1) (due + duration) offset rest := rfl

lemma entriesFrom_shown (timing : Timing) (index : Nat) (due offset : Millis) {element : Element}
    (h : element.isPause = false) (rest : List Element) :
    entriesFrom timing index due offset (element :: rest) =
      ⟨index, element, due + element.leadingPause, offset + (due + element.leadingPause),
          timing.durationOf element⟩ ::
        entriesFrom timing (index + 1) (timing.gapAfter element)
          (offset + (due + element.leadingPause)) rest := by
  cases element <;> first | rfl | cases h

lemma pause_or_shown (element : Element) :
    (∃ duration, element = .pause duration) ∨ element.isPause = false := by
  cases element <;> simp [Element.isPause]

lemma map_place_entriesFrom (timing : Timing) (index : Nat) (due offset : Millis)
    (elements : List Element) :
    (entriesFrom timing index due offset elements).map (fun entry => (entry.element, entry.index)) =
      (elements.zipIdx index).filter (!·.1.isPause) := by
  induction elements generalizing index due offset with
  | nil => rfl
  | cons element rest ih =>
    rw [List.zipIdx_cons]
    obtain ⟨duration, rfl⟩ | h := pause_or_shown element
    · exact ih ..
    · rw [entriesFrom_shown _ _ _ _ h, List.map_cons, ih,
        List.filter_cons_of_pos (by simpa using h)]

/-- The whole time that some entries take one after the other. -/
def span (entries : List Entry) : Nat := (entries.map (·.wait.count)).sum

@[simp] lemma span_nil : span [] = 0 := rfl

@[simp] lemma span_cons (entry : Entry) (entries : List Entry) :
    span (entry :: entries) = entry.wait.count + span entries := rfl

lemma count_add_add (a b : Millis) (n : Nat) :
    min ((a + b).count + n) Millis.limit = min (a.count + (b.count + n)) Millis.limit := by
  rw [Millis.count_add]
  omega

/-- An offset is what has come before and the waits up to the entry. -/
lemma offset_entriesFrom (timing : Timing) (index : Nat) (due offset : Millis)
    (elements : List Element) (i : Nat) (entry : Entry)
    (he : (entriesFrom timing index due offset elements)[i]? = some entry) :
    entry.offset.count = min (offset.count +
      span ((entriesFrom timing index due offset elements).take (i + 1))) Millis.limit := by
  induction elements generalizing index due offset i with
  | nil => simp [entriesFrom] at he
  | cons element rest ih =>
    obtain ⟨duration, rfl⟩ | h := pause_or_shown element
    · exact ih _ _ _ _ he
    · rw [entriesFrom_shown _ _ _ _ h] at he ⊢
      rw [List.take_succ_cons, span_cons]
      cases i with
      | zero =>
        obtain rfl := Option.some.inj he
        rfl
      | succ i =>
        rw [List.getElem?_cons_succ] at he
        rw [ih _ _ _ _ he, count_add_add]

theorem map_place_build (timing : Timing) (elements : List Element) :
    (build timing elements).map (fun entry => (entry.element, entry.index)) =
      elements.zipIdx.filter (!·.1.isPause) :=
  map_place_entriesFrom ..

theorem offset_build (timing : Timing) (elements : List Element) (i : Nat) (entry : Entry)
    (he : (build timing elements)[i]? = some entry) :
    entry.offset.count = min (span ((build timing elements).take (i + 1))) Millis.limit := by
  have := offset_entriesFrom timing 0 0 0 elements i entry he
  rw [show (0 : Millis).count = 0 from rfl, Nat.zero_add] at this
  exact this

end Timeline
end LessonScript
