import LessonScript.Proofs.Timeline
import Mathlib.Data.List.DropRight
import Mathlib.Data.List.Induction

/-!
# The exact times of a timeline

Building a timeline adds up durations at three places, and each sum stops at the longest duration.
It is the same as adding up without any limit and cutting once at the end: this holds of every
wait, and of every offset.
-/

namespace LessonScript
namespace Timeline

/-- The gap that the last presented element leaves, if an element was presented. -/
def gapLeft (timing : Timing) (before : List Element) : Nat :=
  ((before.filter (!·.isPause)).getLast?.map fun element => (timing.gapAfter element).count).getD 0

/-- The length of a pause; other elements have none. -/
def pauseTime : Element → Nat
  | .pause duration => duration.count
  | _ => 0

/-- The time of all pauses since the last presented element. -/
def pausesLeft (before : List Element) : Nat :=
  ((before.rtakeWhile Element.isPause).map pauseTime).sum

/-- The time that an element waits for where nothing limits durations, given the elements before
it. -/
def exactWait (timing : Timing) (before : List Element) (element : Element) : Nat :=
  gapLeft timing before + pausesLeft before + element.leadingPause.count

/-- The exact waits of all elements that are presented. -/
def exactWaits (timing : Timing) (elements : List Element) : List Nat :=
  (elements.zipIdx.filter (!·.1.isPause)).map fun place =>
    exactWait timing (elements.take place.2) place.1

section Before

variable (timing : Timing) (before : List Element)

lemma gapLeft_concat_pause (duration : Millis) :
    gapLeft timing (before ++ [.pause duration]) = gapLeft timing before := by
  simp [gapLeft, Element.isPause]

lemma pausesLeft_concat_pause (duration : Millis) :
    pausesLeft (before ++ [.pause duration]) = pausesLeft before + duration.count := by
  rw [pausesLeft, List.rtakeWhile_concat_pos _ _ _ rfl, List.map_append, List.sum_append]
  rfl

variable {element : Element} (h : element.isPause = false)

include h

lemma gapLeft_concat_shown :
    gapLeft timing (before ++ [element]) = (timing.gapAfter element).count := by
  simp [gapLeft, h]

lemma pausesLeft_concat_shown : pausesLeft (before ++ [element]) = 0 := by
  rw [pausesLeft, List.rtakeWhile_concat_neg _ _ _ (by simp [h])]
  rfl

end Before

/-! ## Waits -/

/-- When the wait that has come up is the exact one as far as durations go, so are all waits from
there on. -/
lemma map_wait_entriesFrom (timing : Timing) (before : List Element) {due : Millis}
    (hdue : due.count = min (gapLeft timing before + pausesLeft before) Millis.limit)
    (offset : Millis) (elements : List Element) :
    (entriesFrom timing before.length due offset elements).map (·.wait.count) =
      ((elements.zipIdx before.length).filter (!·.1.isPause)).map fun place =>
        min (exactWait timing ((before ++ elements).take place.2) place.1) Millis.limit := by
  -- The induction moves elements from the rest to those before, so that they stay one list.
  induction elements generalizing before due offset with
  | nil => rfl
  | cons element rest ih =>
    have hlength : before.length + 1 = (before ++ [element]).length := by simp
    rw [List.zipIdx_cons, List.append_cons, hlength]
    obtain ⟨duration, rfl⟩ | h := pause_or_shown element
    · have hnext : (due + duration).count = min (gapLeft timing (before ++ [.pause duration]) +
          pausesLeft (before ++ [.pause duration])) Millis.limit := by
        rw [gapLeft_concat_pause, pausesLeft_concat_pause, Millis.count_add, hdue]
        omega
      rw [entriesFrom_pause, hlength, ih _ hnext,
        List.filter_cons_of_neg (by simp [Element.isPause])]
    · have hnext : (timing.gapAfter element).count = min (gapLeft timing (before ++ [element]) +
          pausesLeft (before ++ [element])) Millis.limit := by
        have hle := (timing.gapAfter element).count_le_limit
        rw [gapLeft_concat_shown timing before h, pausesLeft_concat_shown before h]
        omega
      have hwait : (due + element.leadingPause).count =
          min (exactWait timing before element) Millis.limit := by
        rw [exactWait, Millis.count_add, hdue]
        omega
      rw [entriesFrom_shown _ _ _ _ h, List.map_cons, hlength, ih _ hnext, hwait,
        List.filter_cons_of_pos (by simpa using h), List.map_cons, List.append_assoc,
        List.take_left]

lemma map_wait_build (timing : Timing) (elements : List Element) :
    (build timing elements).map (·.wait.count) =
      (exactWaits timing elements).map (min · Millis.limit) := by
  have hdue : (0 : Millis).count = min (gapLeft timing [] + pausesLeft []) Millis.limit := rfl
  rw [exactWaits, List.map_map]
  exact map_wait_entriesFrom timing [] hdue 0 elements

/-! ## Offsets -/

/-- Cutting what is added does not matter to a sum that is cut itself. -/
lemma min_sum_map_min (limit : Nat) (xs : List Nat) :
    min (xs.map (min · limit)).sum limit = min xs.sum limit := by
  induction xs with
  | nil => rfl
  | cons x xs ih =>
    rw [List.map_cons, List.sum_cons, List.sum_cons]
    omega

lemma offset_build_eq (timing : Timing) (elements : List Element) {k : Nat} {entry : Entry}
    (he : (build timing elements)[k]? = some entry) :
    entry.offset.count = min ((exactWaits timing elements).take (k + 1)).sum Millis.limit := by
  rw [offset_build timing elements k entry he, span, List.map_take, map_wait_build,
    ← List.map_take, min_sum_map_min]

/-- No entry comes before the time that has come up already. -/
lemma le_offset_entriesFrom (timing : Timing) (index : Nat) (due offset : Millis)
    (elements : List Element) :
    ∀ entry ∈ entriesFrom timing index due offset elements,
      min (offset.count + due.count) Millis.limit ≤ entry.offset.count := by
  induction elements generalizing index due offset with
  | nil => simp [entriesFrom]
  | cons element rest ih =>
    obtain ⟨duration, rfl⟩ | h := pause_or_shown element
    · intro entry he
      have hle := ih _ _ _ entry he
      rw [Millis.count_add] at hle
      omega
    · rw [entriesFrom_shown _ _ _ _ h, List.forall_mem_cons]
      have hoffset : min (offset.count + due.count) Millis.limit ≤
          (offset + (due + element.leadingPause)).count := by
        rw [Millis.count_add, Millis.count_add]
        omega
      refine ⟨hoffset, fun entry he => ?_⟩
      have hle := ih _ _ _ entry he
      omega

/-- A later entry stands at no earlier offset, and at a later one if the first leaves a gap and
stands below the limit. -/
def Rises (timing : Timing) (a b : Entry) : Prop :=
  a.offset.count ≤ b.offset.count ∧
    (0 < (timing.gapAfter a.element).count → a.offset.count < Millis.limit →
      a.offset.count < b.offset.count)

lemma pairwise_rises_entriesFrom (timing : Timing) (index : Nat) (due offset : Millis)
    (elements : List Element) :
    (entriesFrom timing index due offset elements).Pairwise (Rises timing) := by
  induction elements generalizing index due offset with
  | nil => exact .nil
  | cons element rest ih =>
    obtain ⟨duration, rfl⟩ | h := pause_or_shown element
    · exact ih ..
    · rw [entriesFrom_shown _ _ _ _ h]
      refine List.pairwise_cons.2 ⟨fun later hlater => ?_, ih ..⟩
      have hle := le_offset_entriesFrom timing _ _ _ rest later hlater
      have hlimit := (offset + (due + element.leadingPause)).count_le_limit
      refine ⟨?_, ?_⟩
      · show (offset + (due + element.leadingPause)).count ≤ later.offset.count
        omega
      · intro (hgap : 0 < (timing.gapAfter element).count)
          (hbelow : (offset + (due + element.leadingPause)).count < Millis.limit)
        show (offset + (due + element.leadingPause)).count < later.offset.count
        omega

lemma entriesFrom_append_pauses (timing : Timing) (index : Nat) (due offset : Millis)
    (elements : List Element) (durations : List Millis) :
    entriesFrom timing index due offset (elements ++ durations.map .pause) =
      entriesFrom timing index due offset elements := by
  induction elements generalizing index due offset with
  | nil =>
    induction durations generalizing index due with
    | nil => rfl
    | cons duration rest ih => exact ih _ _
  | cons element rest ih =>
    obtain ⟨duration, rfl⟩ | h := pause_or_shown element
    · exact ih ..
    · rw [List.cons_append, entriesFrom_shown _ _ _ _ h, entriesFrom_shown _ _ _ _ h, ih]

/-- A timeline in closed form. Its entries are the elements that are no pauses, each with its place.
An entry waits for the gap of the entry before it, the pauses between the two and the pause that
opens its own text, and stands at the sum of all this up to it: both exactly, or else at the longest
duration. Pauses at the end change nothing. Offsets never fall, and they rise behind every entry
that leaves a gap and stands below the longest duration. -/
theorem build_closed_form (timing : Timing) (elements : List Element) :
    (build timing elements).map (fun entry => (entry.element, entry.index)) =
        elements.zipIdx.filter (!·.1.isPause) ∧
      (build timing elements).map (·.wait.count) =
        (exactWaits timing elements).map (min · Millis.limit) ∧
      (∀ k entry, (build timing elements)[k]? = some entry →
        entry.offset.count = min ((exactWaits timing elements).take (k + 1)).sum Millis.limit) ∧
      (∀ durations : List Millis,
        build timing (elements ++ durations.map .pause) = build timing elements) ∧
      (build timing elements).Pairwise (Rises timing) :=
  ⟨map_place_build timing elements, map_wait_build timing elements,
    fun _ _ he => offset_build_eq timing elements he,
    fun durations => entriesFrom_append_pauses timing 0 0 0 elements durations,
    pairwise_rises_entriesFrom timing 0 0 0 elements⟩

/-- Behind the longest pause nothing can come later. -/
example : (build {} [.closing [], .pause (.ofNat Millis.limit), .closing [], .closing []]).map
    (·.offset.count) = [0, Millis.limit, Millis.limit] := by
  decide

end Timeline
end LessonScript
