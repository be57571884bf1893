import LessonScript.Timing

/-!
# Timelines

A timeline lists what a scene presents, each entry with its wait after the entry before it.
Pauses get no entry of their own: they lengthen the wait of what follows, as does a pause that
opens a text. Every other element leaves its gap to the wait of the next.
-/

namespace LessonScript

structure Entry where
  /-- The element's place among the elements of the scene. -/
  index : Nat
  element : Element
  /-- The time between the entry before and this one. -/
  wait : Millis
  /-- The time between the start and this entry: the sum of all waits so far. -/
  offset : Millis
  duration : Millis
deriving Repr

abbrev Timeline := List Entry

namespace Timeline

/-- The entries of the elements from place `index` on. The wait that has come up so far is
`due`, and the entry before stands at `offset`. -/
def entriesFrom (timing : Timing) (index : Nat) (due offset : Millis) : List Element → Timeline
  | [] => []
  | .pause duration :: rest => entriesFrom timing (index + 1) (due + duration) offset rest
  | element :: rest =>
    let wait := due + element.leadingPause
    let entry := ⟨index, element, wait, offset + wait, timing.durationOf element⟩
    entry :: entriesFrom timing (index + 1) (timing.gapAfter element) entry.offset rest

def build (timing : Timing) (elements : List Element) : Timeline :=
  entriesFrom timing 0 0 0 elements

theorem map_element_entriesFrom (timing : Timing) (index : Nat) (due offset : Millis)
    (elements : List Element) :
    (entriesFrom timing index due offset elements).map Entry.element =
      elements.filter (!·.isPause) := by
  induction elements generalizing index due offset with
  | nil => rfl
  | cons element rest ih => cases element <;> simp [entriesFrom, Element.isPause, ih]

/-- A timeline presents the elements that are not pauses, in their order. -/
theorem map_element_build (timing : Timing) (elements : List Element) :
    (build timing elements).map Entry.element = elements.filter (!·.isPause) :=
  map_element_entriesFrom ..

end Timeline
end LessonScript
