import LessonScript.Document.Element

/-!
# Timing

A timing gives every kind of element its duration and the gap that follows it. A text is shown
in proportion to its length, within bounds. Playing at another speed scales all of these times.
-/

namespace LessonScript

/-- How long an element is shown, and the gap before what comes next. -/
structure Pacing where
  duration : Millis
  gap : Millis
deriving DecidableEq, Repr

/-- The pacing of texts: a time for each character within two bounds, and the gap after. -/
structure TextPacing where
  perChar : Millis
  min : Millis
  max : Millis
  gap : Millis
deriving DecidableEq, Repr

/-- The pacing of every kind of element that is presented. -/
structure Timing where
  title : Pacing := ⟨1500, 1500⟩
  quote : Pacing := ⟨1200, 800⟩
  practice : Pacing := ⟨1000, 500⟩
  word : Pacing := ⟨1500, 500⟩
  closing : Pacing := ⟨1000, 500⟩
  text : TextPacing := ⟨50, 800, 2000, 500⟩
deriving DecidableEq, Repr

namespace TextPacing

/-- How long a text of the given length is shown. Where the bounds cross, the lower one wins. -/
def durationOf (pacing : TextPacing) (length : Nat) : Millis :=
  ((pacing.perChar.times length).atMost pacing.max).atLeast pacing.min

end TextPacing

namespace Timing

instance : Inhabited Timing := ⟨{}⟩

def durationOf (timing : Timing) (element : Element) : Millis :=
  match element.kind with
  | .title => timing.title.duration
  | .quote => timing.quote.duration
  | .practice => timing.practice.duration
  | .word => timing.word.duration
  | .closing => timing.closing.duration
  | .text => timing.text.durationOf (element.textLength?.getD 0)
  | .pause => 0

def gapAfter (timing : Timing) (element : Element) : Millis :=
  match element.kind with
  | .title => timing.title.gap
  | .quote => timing.quote.gap
  | .practice => timing.practice.gap
  | .word => timing.word.gap
  | .closing => timing.closing.gap
  | .text => timing.text.gap
  | .pause => 0

/-- The factor that a speed stretches times by. Only positive finite speeds count. -/
def stretch (speed : Float) : Float :=
  if speed.isFinite && 0 < speed then 1 / speed else 1

/-- A time stretched by a factor, in whole milliseconds within the limit. -/
def stretched (factor : Float) (time : Millis) : Millis :=
  .ofNat ((UInt64.ofNat time.count).toFloat * factor).round.toUInt64.toNat

/-- The timing at another speed; at speed two everything takes half as long. -/
def withSpeed (timing : Timing) (speed : Float) : Timing :=
  let scale := stretched (stretch speed)
  let pacing (p : Pacing) : Pacing := ⟨scale p.duration, scale p.gap⟩
  let text := timing.text
  { title := pacing timing.title
    quote := pacing timing.quote
    practice := pacing timing.practice
    word := pacing timing.word
    closing := pacing timing.closing
    text := ⟨scale text.perChar, scale text.min, scale text.max, scale text.gap⟩ }

end Timing

end LessonScript
