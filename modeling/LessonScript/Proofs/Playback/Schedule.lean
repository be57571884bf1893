import LessonScript.Proofs.Playback.Delivery
import LessonScript.Proofs.Timeline

/-!
# Playback on schedule

On a clock that times every wait to its end, a play that no control touches delivers each entry as
soon as the waits up to it have passed since the play began, and completes with the last delivery.
The offsets of a timeline are the times at which a play from its start delivers.
-/

namespace LessonScript
open Timeline (span)

/-- The entries with the times of their delivery, one after the other from a start on. -/
def schedule (start : Nat) (entries : List Entry) : List (Entry × Nat) :=
  entries.mapIdx fun i entry => (entry, start + span (entries.take (i + 1)))

@[simp] lemma schedule_nil (start : Nat) : schedule start [] = [] := rfl

lemma getElem?_schedule (start : Nat) (entries : List Entry) (i : Nat) :
    (schedule start entries)[i]? =
      entries[i]?.map fun entry => (entry, start + span (entries.take (i + 1))) :=
  List.getElem?_mapIdx

lemma map_fst_schedule (start : Nat) (entries : List Entry) :
    (schedule start entries).map Prod.fst = entries := by
  apply List.ext_getElem?
  intro i
  rw [List.getElem?_map, getElem?_schedule, Option.map_map]
  exact Option.map_id'

lemma schedule_cons (start : Nat) (entry : Entry) (rest : List Entry) :
    schedule start (entry :: rest) =
      (entry, start + entry.wait.count) :: schedule (start + entry.wait.count) rest := by
  simp [schedule, List.mapIdx_cons, Nat.add_assoc]

lemma schedule_drop (start : Nat) (entries : List Entry) (place : Fin entries.length) :
    schedule start (entries.drop place) = (entries[place], start + entries[place].wait.count) ::
      schedule (start + entries[place].wait.count) (entries.drop (place + 1)) := by
  rw [List.drop_eq_getElem_cons place.isLt, schedule_cons]
  rfl

lemma span_drop (entries : List Entry) (place : Fin entries.length) :
    span (entries.drop place) = entries[place].wait.count + span (entries.drop (place + 1)) := by
  rw [List.drop_eq_getElem_cons place.isLt, Timeline.span_cons]
  rfl

lemma le_of_mem_schedule {start : Nat} {entries : List Entry} {d : Entry × Nat}
    (hd : d ∈ schedule start entries) : start ≤ d.2 := by
  obtain ⟨i, _, rfl⟩ := List.mem_mapIdx.1 hd
  exact Nat.le_add_right ..

lemma getLast?_schedule (start : Nat) (entries : List Entry) :
    ((schedule start entries).getLast?.map Prod.snd).getD start = start + span entries := by
  induction entries generalizing start with
  | nil => rfl
  | cons entry rest ih =>
    rw [schedule_cons, List.getLast?_cons, Timeline.span_cons, ← Nat.add_assoc, ← ih]
    cases (schedule (start + entry.wait.count) rest).getLast? <;> rfl

namespace Session
open History

section Course

variable {play : Play} {agenda : List (Entry × Nat)} {last place base : Nat} {s : Session}

/-- A play has come to a place on time: it has delivered what was due, its next wait begins at a
time `base`, and nothing holds it back. -/
structure OnTime (play : Play) (agenda : List (Entry × Nat)) (last place base : Nat)
    (s : Session) : Prop where
  generation : s.player.generation = play.generation
  state : s.player.state = .playing
  exact : s.clock.longestWait = none
  agenda_eq : agenda =
    deliveries (own play.number s.history) ++ schedule base (play.timeline.drop place)
  last_eq : last = base + span (play.timeline.drop place)
  delivered : ∀ d ∈ deliveries (own play.number s.history), d.2 ≤ s.clock.now
  unended : (own play.number s.history).filter (·.ends play.number) = []

/-- How far a play on time has come: it waits for the next entry, or has ended. -/
inductive Course (play : Play) (agenda : List (Entry × Nat)) (last : Nat) (s : Session) :
    Option Suspended → Prop
  | waiting (place : Fin play.timeline.length) (base : Nat)
      (ht : OnTime play agenda last place base s)
      (hn : s.clock.now < base + (getElem play.timeline place place.isLt).wait.count) :
      Course play agenda last s
        (some ⟨play, place, .waiting (base + (getElem play.timeline place place.isLt).wait.count)⟩)
  | ended (hd : deliveries (own play.number s.history) = agenda)
      (he : (own play.number s.history).filter (·.ends play.number) =
        [.ended play.number .completed last])
      (hg : s.player.generation = play.generation) (hl : last ≤ s.clock.now)
      (hp : ∀ d ∈ agenda, d.2 ≤ s.clock.now) :
      Course play agenda last s none

lemma OnTime.interruption? (ht : OnTime play agenda last place base s) :
    s.player.interruption? play.generation = none := by
  simp [Player.interruption?, ht.generation, ht.state]

lemma present_of_no_answer {place : Fin play.timeline.length} (hq : ∀ i, play.answers i = [])
    (hg : s.player.generation = play.generation) :
    s.present play place =
      (s.record (.shown (.play play.number) play.timeline[place] s.clock.now)).record
        (.moved play.number (place + 1) s.clock.now) := by
  simp only [present, deliver, hq]
  exact if_pos hg

lemma OnTime.present (place : Fin play.timeline.length) (hq : ∀ i, play.answers i = [])
    (ht : OnTime play agenda last place base s)
    (hn : s.clock.now = base + (getElem play.timeline place place.isLt).wait.count) :
    OnTime play agenda last (place + 1) s.clock.now (s.present play place) := by
  have hown : own play.number (s.present play place).history =
      .moved play.number (place + 1) s.clock.now ::
        .shown (.play play.number) play.timeline[place] s.clock.now ::
          own play.number s.history := by
    rw [present_of_no_answer hq ht.generation]
    simp [own, Event.play?]
  have hd : deliveries (own play.number (s.present play place).history) =
      deliveries (own play.number s.history) ++ [(play.timeline[place], s.clock.now)] := by
    rw [hown, deliveries_cons, deliveries_cons]
    simp [Event.delivery?]
  have hclock := clock_present s play place
  have hplayer : (s.present play place).player = s.player.moveTo (place + 1) := by
    rw [present_of_no_answer hq ht.generation]
    rfl
  refine ⟨?_, ?_, ?_, ?_, ?_, ?_, ?_⟩
  · rw [hplayer]
    exact ht.generation
  · rw [hplayer]
    exact ht.state
  · rw [hclock]
    exact ht.exact
  · rw [hd, ht.agenda_eq, schedule_drop, hn, List.append_assoc]
    rfl
  · rw [ht.last_eq, span_drop, hn, Nat.add_assoc]
  · rw [hd, hclock]
    intro d hmem
    rcases List.mem_append.1 hmem with hmem | hmem
    · exact ht.delivered d hmem
    · obtain rfl := List.mem_singleton.1 hmem
      exact Nat.le_refl _
  · rw [hown]
    simpa [Event.ends] using ht.unended

lemma OnTime.finish (ht : OnTime play agenda last place s.clock.now s)
    (hp : play.timeline.length ≤ place) :
    Course play agenda last (s.finish play .completed) none := by
  have hlast := ht.last_eq
  have hagenda := ht.agenda_eq
  rw [List.drop_eq_nil_of_le hp] at hlast hagenda
  simp only [Timeline.span_nil, schedule_nil, Nat.add_zero, List.append_nil] at hlast hagenda
  have hown : own play.number (s.finish play .completed).history =
      .ended play.number .completed s.clock.now :: own play.number s.history := by
    simp [Session.finish, own, Event.play?]
  have hd : deliveries (own play.number (s.finish play .completed).history) =
      deliveries (own play.number s.history) := by
    rw [hown, deliveries_cons]
    exact List.append_nil _
  refine .ended (hd.trans hagenda.symm) ?_ ht.generation (Nat.le_of_eq hlast) ?_
  · rw [hown, hlast, List.filter_cons_of_pos (by simp [Event.ends]), ht.unended]
  · rw [hagenda]
    exact ht.delivered

/-- A play on time goes on until it waits for the next entry, or completes. -/
theorem OnTime.run (hq : ∀ i, play.answers i = [])
    (ht : OnTime play agenda last place s.clock.now s) :
    ∃ left, (Session.run play place s).suspended = s.suspended ++ left.toList ∧
      (Session.run play place s).clock = s.clock ∧
      Course play agenda last (Session.run play place s) left := by
  induction place, s using run.induct play with
  | case1 place s h outcome hi =>
    rw [ht.interruption?] at hi
    cases hi
  | case2 place s h hi hp =>
    rw [ht.state] at hp
    cases hp
  | case3 place s h hi hp hw =>
    rw [Session.run, dif_pos h, hi]
    simp only [hp, hw, if_false, if_true]
    have hdue : s.clock.due play.timeline[place].wait =
        s.clock.now + play.timeline[place].wait.count := by
      rw [Clock.due, Clock.lasting_of_unbounded ht.exact]
    rw [hdue]
    exact ⟨_, rfl, rfl, .waiting ⟨place, h⟩ s.clock.now
      ⟨ht.generation, ht.state, ht.exact, ht.agenda_eq, ht.last_eq, ht.delivered, ht.unended⟩
      (Nat.lt_add_of_pos_right hw)⟩
  | case4 place s h hi hp hw hg ih =>
    have hclock := clock_present s play ⟨place, h⟩
    have hzero : play.timeline[place].wait.count = 0 := Nat.eq_zero_of_not_pos hw
    have ht' := ht.present ⟨place, h⟩ hq
      ((Nat.add_zero _).symm.trans (congrArg _ hzero.symm))
    rw [← hclock] at ht'
    rw [cursor_present hg] at ih
    obtain ⟨left, hs, hc, hl⟩ := ih ht'
    rw [Session.run, dif_pos h, hi]
    simp only [hp, hw, if_false, dif_pos hg]
    rw [cursor_present hg]
    exact ⟨left, by rw [hs, suspended_present], hc.trans hclock, hl⟩
  | case5 place s h hi hp hw hg =>
    rw [present_of_no_answer hq ht.generation] at hg
    exact absurd ht.generation hg
  | case6 place s h =>
    rw [Session.run, dif_neg h, ht.interruption?]
    exact ⟨none, (List.append_nil _).symm, rfl, ht.finish (Nat.le_of_not_lt h)⟩

lemma OnTime.wake {place : Fin play.timeline.length} (hold : Hold) (hq : ∀ i, play.answers i = [])
    (ht : OnTime play agenda last place base s)
    (hn : s.clock.now = base + (getElem play.timeline place place.isLt).wait.count) :
    ∃ left, (Session.wake ⟨play, place, hold⟩ s).suspended = s.suspended ++ left.toList ∧
      (Session.wake ⟨play, place, hold⟩ s).clock = s.clock ∧
      Course play agenda last (Session.wake ⟨play, place, hold⟩ s) left := by
  have hclock := clock_present s play place
  have ht' := ht.present place hq hn
  rw [← hclock] at ht'
  obtain ⟨left, hs, hc, hl⟩ := ht'.run hq
  simp only [Session.wake, ht.interruption?, if_pos ht'.generation, cursor_present ht'.generation]
  exact ⟨left, by rw [hs, suspended_present], hc.trans hclock, hl⟩

/-! ### What does not touch a play -/

lemma OnTime.frame {s' : Session} (ht : OnTime play agenda last place base s)
    (hown : own play.number s'.history = own play.number s.history) (hp : s'.player = s.player)
    (hw : s'.clock.longestWait = s.clock.longestWait) (hn : s.clock.now ≤ s'.clock.now) :
    OnTime play agenda last place base s' := by
  refine ⟨?_, ?_, ?_, ?_, ht.last_eq, ?_, ?_⟩
  · rw [hp, ht.generation]
  · rw [hp, ht.state]
  · rw [hw, ht.exact]
  · rw [hown, ← ht.agenda_eq]
  · rw [hown]
    exact fun d hd => Nat.le_trans (ht.delivered d hd) hn
  · rw [hown, ht.unended]

lemma Course.frame {s' : Session} {left : Option Suspended} (hc : Course play agenda last s left)
    (hown : own play.number s'.history = own play.number s.history) (hp : s'.player = s.player)
    (hclock : s'.clock = s.clock) : Course play agenda last s' left := by
  cases hc with
  | waiting place base ht hn =>
    refine .waiting place base (ht.frame hown hp ?_ ?_) ?_
    · exact congrArg _ hclock
    · exact Nat.le_of_eq (congrArg _ hclock.symm)
    · rw [hclock]
      exact hn
  | ended hd he hg hl hpast =>
    refine .ended ?_ ?_ ?_ ?_ ?_
    · rw [hown, hd]
    · rw [hown, he]
    · rw [hp, hg]
    · rw [hclock]
      exact hl
    · rw [hclock]
      exact hpast

lemma Course.generation {left : Option Suspended} (hc : Course play agenda last s left) :
    s.player.generation = play.generation := by
  cases hc with
  | waiting place base ht hn => exact ht.generation
  | ended hd he hg hl hp => exact hg

/-- Plays that have lost control end when they get their turn, and the play that took over waits
on. -/
theorem Course.settle {left : Option Suspended} (old : List Suspended)
    (hc : Course play agenda last s left) (hs : s.suspended = old ++ left.toList)
    (hold : ∀ w ∈ old, w.play.generation ≠ play.generation ∧ w.play.number ≠ play.number) :
    s.settle.suspended = left.toList ∧ s.settle.clock = s.clock ∧
      Course play agenda last s.settle left := by
  have turns : ∀ (old : List Suspended) (s : Session), s.suspended = [] →
      Course play agenda last s left →
      (∀ w ∈ old, w.play.generation ≠ play.generation ∧ w.play.number ≠ play.number) →
      ((old ++ left.toList).foldl turn s).suspended = left.toList ∧
        ((old ++ left.toList).foldl turn s).clock = s.clock ∧
        Course play agenda last ((old ++ left.toList).foldl turn s) left := by
    intro old
    induction old with
    | nil =>
      intro s hnil hcourse _
      cases hcourse with
      | ended hd he hg hl hp => exact ⟨hnil, rfl, .ended hd he hg hl hp⟩
      | waiting place base ht hn =>
        have hturn : s.turn ⟨play, place, .waiting (base + play.timeline[place].wait.count)⟩ =
            s.suspend ⟨play, place, .waiting (base + play.timeline[place].wait.count)⟩ := by
          simp only [Session.turn, ht.interruption?]
        simp only [List.nil_append, Option.toList_some, List.foldl_cons, List.foldl_nil, hturn]
        exact ⟨by simp [suspend, hnil], rfl, (Course.waiting place base ht hn).frame rfl rfl rfl⟩
    | cons w old ih =>
      intro s hs hc hold
      obtain ⟨hg, hn⟩ := hold w List.mem_cons_self
      have hturn : s.turn w = s.finish w.play .superseded := by
        have hi : s.player.interruption? w.play.generation = some .superseded :=
          if_pos (by rw [hc.generation]; exact hg.symm)
        simp only [Session.turn, hi]
      rw [List.cons_append, List.foldl_cons, hturn]
      refine ih (s.finish w.play .superseded) hs (hc.frame ?_ rfl rfl)
        fun w' hw' => hold w' (List.mem_cons_of_mem _ hw')
      rw [Session.finish, history_record, own_cons]
      exact if_neg (by simpa [Event.play?] using hn)
  rw [Session.settle, hs]
  exact turns old { s with suspended := [] } rfl (hc.frame rfl rfl rfl) hold

/-! ### The passing of time -/

theorem Course.advanceTo {target : Nat} {left : Option Suspended} (hq : ∀ i, play.answers i = [])
    (hc : Course play agenda last s left) (hs : s.suspended = left.toList)
    (ht : s.clock.now ≤ target) :
    ∃ left', (Session.advanceTo target s).suspended = left'.toList ∧
      (Session.advanceTo target s).clock = s.clock.moveTo target ∧
      Course play agenda last (Session.advanceTo target s) left' := by
  induction hp : Suspended.pending s.suspended using Nat.strongRecOn generalizing s left with
  | ind p ih =>
    cases hc with
    | ended hd he hg hl hpast =>
      rw [advanceTo_nil hs]
      exact ⟨none, hs, rfl, .ended hd he hg (Nat.le_trans hl ht)
        fun d hd => Nat.le_trans (hpast d hd) ht⟩
    | waiting place base htime hn =>
      rw [advanceTo_waiting hs rfl]
      split
      case isTrue hlt => exact ⟨_, hs, rfl, .waiting place base (htime.frame rfl rfl rfl ht) hlt⟩
      case isFalse hlt =>
        have hdue : OnTime play agenda last place base { s with
            clock := s.clock.moveTo (base + play.timeline[place].wait.count), suspended := [] } :=
          htime.frame rfl rfl rfl (Nat.le_of_lt hn)
        have hpend := pending_wake
          ⟨play, place, .waiting (base + play.timeline[place].wait.count)⟩
          { s with
            clock := s.clock.moveTo (base + play.timeline[place].wait.count), suspended := [] }
        obtain ⟨left, hsusp, hclock, hc⟩ := hdue.wake _ hq rfl
        have hnext := ih _ (by simpa [← hp, hs, Suspended.pending] using hpend) hc hsusp
          (by rw [hclock]; exact Nat.le_of_not_lt hlt) rfl
        rw [hclock] at hnext
        exact hnext

/-- A play that no control touches keeps to its agenda while time passes. -/
theorem Course.advances {left : Option Suspended} (hq : ∀ i, play.answers i = [])
    (hc : Course play agenda last s left) (hs : s.suspended = left.toList)
    (durations : List Nat) :
    ∃ left', Course play agenda last ((durations.map SessionStep.advance).foldl step s) left' := by
  induction durations generalizing s left with
  | nil => exact ⟨left, hc⟩
  | cons duration durations ih =>
    obtain ⟨left', hs', -, hc'⟩ :=
      hc.advanceTo hq hs (Nat.le_add_right s.clock.now duration)
    obtain ⟨hs'', -, hc''⟩ := hc'.settle [] hs' (by simp)
    exact ih hc'' hs''

end Course

/-! ### From the beginning of a play -/

variable {timing : Timing} {s : Session}

lemma Sound.own_plays (hs : Sound timing s) : own s.plays s.history = [] := by
  rw [own, List.filter_eq_nil_iff]
  intro e he hn
  have := hs.during.1.lawful.lt_plays he (of_decide_eq_true hn)
  rw [hs.during.1.plays] at this
  exact Nat.lt_irrefl _ this

/-- The plays that are set aside are older than the one that begins. -/
lemma Sound.older (hs : Sound timing s) {w : Suspended} (hw : w ∈ s.suspended) :
    w.play.generation ≠ s.player.generation + 1 ∧ w.play.number ≠ s.plays := by
  have ha := hs.during.1.agrees _ (List.mem_map_of_mem hw)
  have hb := begun_of_running ha.running
  have hgen : w.play.generation ≤ s.player.generation := by
    rw [hs.during.1.player, generation_eq timing hb, show w.play.generation = _ from ha.generation]
    exact Nat.le_add_right ..
  refine ⟨Nat.ne_of_lt (Nat.lt_succ_of_le hgen), fun hn => ?_⟩
  obtain ⟨e, he, hbegins⟩ := List.any_eq_true.1 hb
  have hmem : e ∈ own s.plays s.history :=
    List.mem_filter.2 ⟨he, decide_eq_true (hn ▸ Event.play?_of_begins hbegins)⟩
  rw [hs.own_plays] at hmem
  cases hmem

/-- What a play that begins now has to deliver, and when. -/
def agenda (s : Session) : List (Entry × Nat) :=
  schedule s.clock.now (s.player.timeline.drop s.player.cursor)

/-- The time of the last delivery of a play that begins now; the present if there is none. -/
def lastDelivery (s : Session) : Nat := (s.agenda.getLast?.map Prod.snd).getD s.clock.now

/-- A play that begins on a clock that times every wait keeps to the agenda. -/
lemma Sound.course (hs : Sound timing s) (he : s.clock.longestWait = none) :
    ∃ left, (s.play fun _ => []).suspended = s.suspended ++ left.toList ∧
      Course ⟨s.plays, s.player.generation + 1, s.player.timeline, fun _ => []⟩
        s.agenda s.lastDelivery (s.play fun _ => []) left := by
  have hown : own s.plays (s.record (.began s.plays s.clock.now)).history =
      [.began s.plays s.clock.now] := by
    rw [history_record, own_cons, hs.own_plays]
    exact if_pos rfl
  have htime : OnTime ⟨s.plays, s.player.generation + 1, s.player.timeline, fun _ => []⟩
      s.agenda s.lastDelivery s.player.cursor s.clock.now
      { s.record (.began s.plays s.clock.now) with plays := s.plays + 1 } := by
    refine ⟨rfl, rfl, he, ?_, getLast?_schedule .., ?_, ?_⟩ <;> simp only [hown]
    · rfl
    · nofun
    · rfl
  obtain ⟨left, hsusp, -, hc⟩ := OnTime.run
    (s := { s.record (.began s.plays s.clock.now) with plays := s.plays + 1 }) (fun _ => rfl) htime
  exact ⟨left, hsusp, hc⟩

/-- A play that began in one session has kept to its agenda, as another session later tells. -/
structure KeepsAgenda (s t : Session) : Prop where
  delivered : deliveries (own s.plays t.history) = s.agenda.filter (·.2 ≤ t.clock.now)
  completed : s.lastDelivery ≤ t.clock.now → deliveries (own s.plays t.history) = s.agenda ∧
    (own s.plays t.history).filter (·.ends s.plays) = [.ended s.plays .completed s.lastDelivery]
  pending : t.clock.now < s.lastDelivery → (own s.plays t.history).filter (·.ends s.plays) = []

lemma Course.keepsAgenda {play : Play} {t : Session} {left : Option Suspended}
    (hn : play.number = s.plays) (hc : Course play s.agenda s.lastDelivery t left) :
    KeepsAgenda s t := by
  have all : ∀ delivered : List (Entry × Nat), (∀ d ∈ delivered, d.2 ≤ t.clock.now) →
      delivered.filter (·.2 ≤ t.clock.now) = delivered := by
    intro delivered hd
    rw [List.filter_eq_self]
    exact fun d hmem => decide_eq_true (hd d hmem)
  cases hc with
  | ended hd he _ hl hp =>
    rw [hn] at hd he
    exact ⟨hd.trans (all _ hp).symm, fun _ => ⟨hd, he⟩, fun hlt => absurd hlt (Nat.not_lt.2 hl)⟩
  | waiting place base ht hlt =>
    have hagenda := ht.agenda_eq
    have hlast := ht.last_eq
    have hpast := ht.delivered
    rw [span_drop] at hlast
    have hlate : t.clock.now < s.lastDelivery := by omega
    have hrest : (schedule base (play.timeline.drop place)).filter (·.2 ≤ t.clock.now) = [] := by
      rw [List.filter_eq_nil_iff, schedule_drop]
      intro d hmem
      have hle : base + play.timeline[place].wait.count ≤ d.2 := by
        rcases List.mem_cons.1 hmem with rfl | hmem
        · exact Nat.le_refl _
        · exact le_of_mem_schedule hmem
      simpa using Nat.lt_of_lt_of_le hlt hle
    rw [hn] at hagenda hpast
    refine ⟨?_, fun hle => absurd hle (Nat.not_le.2 hlate), fun _ => hn ▸ ht.unended⟩
    rw [hagenda, List.filter_append, hrest, all _ hpast, List.append_nil]

/-- A play that no control touches delivers each entry after the cursor when the waits up to it
have passed, and completes with the last. If a scene was loaded and nothing has been delivered of
it, these are the elements that are no pauses, with their places, at the offsets of the timeline. -/
theorem play_keeps_agenda (timing : Timing) (before : List SessionStep) (batch : List Action)
    (durations : List Nat) :
    let s := batch.foldl act (after timing .exact before)
    let t := after timing .exact
      (before ++ .act (batch ++ [.play fun _ => []]) :: durations.map .advance)
    t.clock.now = s.clock.now + durations.sum ∧ KeepsAgenda s t ∧
      ∀ elements, lastRewind? s.history = some (.load elements) →
        deliveries (sinceRewind s.history) = [] →
        s.agenda.map (fun d => (d.1.element, d.1.index)) =
            elements.zipIdx.filter (!·.1.isPause) ∧
          ∀ i entry time, s.agenda[i]? = some (entry, time) →
            span ((Timeline.build timing elements).take (i + 1)) ≤ Millis.limit →
            time = s.clock.now + entry.offset.count := by
  intro s t
  obtain ⟨hset, hclock⟩ := settled_after timing .exact before
  obtain ⟨hs, hact⟩ := hset.sound.acts batch
  have hnow : s.clock =
      Clock.exact.moveTo (Clock.exact.now + (before.map SessionStep.duration).sum) :=
    hact.trans hclock
  refine ⟨?_, ?_, fun elements hload hd => ?_⟩
  · rw [(settled_after ..).2, hnow, List.map_append, List.sum_append, Clock.now_moveTo,
      Clock.now_moveTo, List.map_cons, List.map_map, List.sum_cons, ← Nat.add_assoc]
    simp [SessionStep.duration, Function.comp_def]
  · obtain ⟨left, hsusp, hc⟩ := hs.course (by rw [hnow]; rfl)
    obtain ⟨hsusp', -, hc'⟩ := hc.settle _ hsusp fun w hw => hs.older hw
    obtain ⟨left', hc''⟩ := hc'.advances (fun _ => rfl) hsusp' durations
    have ht : t = (durations.map SessionStep.advance).foldl step (s.play fun _ => []).settle := by
      simp only [t, after_append, List.foldl_cons, Session.step, List.foldl_append, List.foldl_nil]
      rfl
    rw [ht]
    exact hc''.keepsAgenda rfl
  · have hbuild : s.player.timeline.drop s.player.cursor = Timeline.build timing elements := by
      rw [hs.during.1.player]
      exact hs.during.1.lawful.drop_cursor_of_load hs.during.2 hload hd
    rw [Session.agenda, hbuild]
    refine ⟨?_, fun i entry time he hle => ?_⟩
    · rw [← Timeline.map_place_build timing elements]
      nth_rewrite 2 [← map_fst_schedule s.clock.now (Timeline.build timing elements)]
      rw [List.map_map]
      rfl
    · rw [getElem?_schedule, Option.map_eq_some_iff] at he
      obtain ⟨_, he, heq⟩ := he
      obtain ⟨rfl, rfl⟩ := Prod.mk.inj heq
      rw [Timeline.offset_build timing elements i _ he, Nat.min_eq_left hle]

end Session
end LessonScript
