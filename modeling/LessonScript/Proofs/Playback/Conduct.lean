import LessonScript.Proofs.Playback.Lawful
import Mathlib.Algebra.GroupWithZero.Nat

/-!
# Sessions keep to the rules

Whatever is asked of a session, its history stays lawful. A session is consistent with a list of
tasks when these are the plays that have begun and have not ended, each at the place that the
cursor has reached unless the play has been taken over. Every operation of a session turns
consistent sessions into consistent ones, and once all plays have had their turn the session is
settled: a play that is left waits with good reason.
-/

namespace LessonScript
open History

/-- A play that is under way, and the place in its timeline that it has come to. -/
structure Task where
  play : Play
  place : Nat

/-- A task is what its play took from the history when it began. -/
structure Task.Agrees (timing : Timing) (h : History) (t : Task) : Prop where
  running : running t.play.number h = true
  generation : t.play.generation = (outset timing t.play.number h).generation
  timeline : t.play.timeline = (outset timing t.play.number h).timeline
  place : takenOver t.play.number h = false → t.place = (player timing h).cursor

namespace Session

/-- A session agrees with its history, and the tasks are the plays under way. -/
structure Consistent (timing : Timing) (tasks : List Task) (s : Session) : Prop where
  lawful : Lawful timing s.history
  player : s.player = History.player timing s.history
  plays : s.plays = History.plays s.history
  agrees : ∀ t ∈ tasks, t.Agrees timing s.history
  nodup : (tasks.map (·.play.number)).Nodup
  all : ∀ n, running n s.history = true → ∃ t ∈ tasks, t.play.number = n

end Session

variable {timing : Timing} {h : History} {e : Event} {t : Task} {tasks : List Task} {s : Session}

namespace Task.Agrees

lemma takenOver_iff (ha : t.Agrees timing h) :
    takenOver t.play.number h = true ↔ (player timing h).generation ≠ t.play.generation := by
  rw [ha.generation]
  exact History.takenOver_iff timing (begun_of_running ha.running)

lemma interruption? (ha : t.Agrees timing h) (hl : Lawful timing h) :
    (player timing h).interruption? t.play.generation =
      if verdict t.play.number h = .completed then none else some (verdict t.play.number h) := by
  have hto := ha.takenOver_iff
  cases ht : takenOver t.play.number h with
  | true => simp [Player.interruption?, verdict, ht, hto.1 ht]
  | false =>
    have hg : (player timing h).generation = t.play.generation := by simpa [ht] using hto
    have hst := hl.state_of_live ⟨ha.running, ht⟩
    cases hs : stopped t.play.number h with
    | true => simp [Player.interruption?, verdict, ht, hg, hs, hst.2 hs]
    | false =>
      have hns : (player timing h).state ≠ .stopped := by
        intro h0
        simp [h0, hs, PlaybackState.isActive] at hst
      simp [Player.interruption?, verdict, ht, hg, hs, hns]

lemma timeline_eq (ha : t.Agrees timing h) (ht : takenOver t.play.number h = false) :
    t.play.timeline = (player timing h).timeline := by
  rw [ha.timeline, History.timeline_eq timing (begun_of_running ha.running) ht]

/-- A task goes on through every event but those that move it on or end it. -/
lemma cons (ha : t.Agrees timing h) (hl : Lawful timing h) (hf : Follows timing h e)
    (he : e.ends t.play.number = false) (hm : ∀ c time, e ≠ .moved t.play.number c time) :
    t.Agrees timing (e :: h) := by
  have hb := hl.not_begins hf (begun_of_running ha.running)
  refine ⟨?_, ?_, ?_, fun ht => ?_⟩
  · rw [running_cons hb, ha.running, he]
    rfl
  · rw [outset_cons hb]
    exact ha.generation
  · rw [outset_cons hb]
    exact ha.timeline
  · rw [takenOver_cons hb, Bool.or_eq_false_iff] at ht
    rw [ha.place ht.2, player_cons, Event.cursor_apply (Event.rewind?_eq_none ht.1)]
    -- only a live play moves on, and there is but one
    rintro m c time rfl
    cases hf with
    | moved _ entry _ hans htm =>
      obtain rfl := Live.unique ⟨hl.running_of_answering hans, htm⟩ ⟨ha.running, ht.2⟩
      exact hm _ _ rfl

end Task.Agrees

namespace Session
namespace Consistent

lemma perm {tasks' : List Task} (hc : Consistent timing tasks s) (hp : tasks.Perm tasks') :
    Consistent timing tasks' s where
  lawful := hc.lawful
  player := hc.player
  plays := hc.plays
  agrees t ht := hc.agrees t (hp.mem_iff.2 ht)
  nodup := (hp.map _).nodup_iff.1 hc.nodup
  all n hn := by
    obtain ⟨t, ht, hn⟩ := hc.all n hn
    exact ⟨t, hp.mem_iff.1 ht, hn⟩

/-- Events in which no play begins, moves on or ends leave the tasks as they are. -/
lemma record (hc : Consistent timing tasks s) (hf : Follows timing s.history e)
    (hb : ∀ n, e.begins n = false) (he : ∀ n, e.ends n = false)
    (hm : ∀ n c time, e ≠ .moved n c time) : Consistent timing tasks (s.record e) where
  lawful := hc.lawful.cons hf
  player := congrArg e.apply hc.player
  plays := by
    cases e with
    | began n time => simpa [Event.begins] using hb n
    | _ => exact hc.plays
  agrees t ht := (hc.agrees t ht).cons hc.lawful hf (he _) (hm _)
  nodup := hc.nodup
  all n hn := by
    rw [history_record, running_cons (hb n), Bool.and_eq_true] at hn
    exact hc.all n hn.1

lemma number_ne {t' : Task} (hc : Consistent timing (t :: tasks) s) (ht : t' ∈ tasks) :
    t'.play.number ≠ t.play.number := by
  intro hn
  have := hc.nodup
  rw [List.map_cons, List.nodup_cons] at this
  exact this.1 (hn ▸ List.mem_map_of_mem ht)

lemma move {c time : Nat} (hc : Consistent timing (t :: tasks) s)
    (hf : Follows timing s.history (.moved t.play.number c time)) :
    Consistent timing (⟨t.play, c⟩ :: tasks) (s.record (.moved t.play.number c time)) where
  lawful := hc.lawful.cons hf
  player := congrArg (Event.apply (.moved t.play.number c time)) hc.player
  plays := hc.plays
  agrees t' ht' := by
    rcases List.mem_cons.1 ht' with rfl | ht'
    · have ha := hc.agrees t List.mem_cons_self
      exact ⟨by rw [history_record, running_cons rfl, ha.running]; rfl,
        by rw [history_record, outset_cons rfl]; exact ha.generation,
        by rw [history_record, outset_cons rfl]; exact ha.timeline, fun _ => rfl⟩
    · refine (hc.agrees t' (List.mem_cons_of_mem _ ht')).cons hc.lawful hf rfl fun _ _ heq => ?_
      exact hc.number_ne ht' (by injection heq with hn; exact hn.symm)
  nodup := hc.nodup
  all n hn := by
    rw [history_record, running_cons rfl, Bool.and_eq_true] at hn
    obtain ⟨t', ht', hnum⟩ := hc.all n hn.1
    rcases List.mem_cons.1 ht' with rfl | ht'
    · exact ⟨_, List.mem_cons_self, hnum⟩
    · exact ⟨t', List.mem_cons_of_mem _ ht', hnum⟩

lemma finish {outcome : Outcome} (hc : Consistent timing (t :: tasks) s)
    (hf : Follows timing s.history (.ended t.play.number outcome s.clock.now)) :
    Consistent timing tasks (s.finish t.play outcome) where
  lawful := hc.lawful.cons hf
  player := congrArg (Event.apply (.ended t.play.number outcome s.clock.now)) hc.player
  plays := hc.plays
  agrees t' ht' := by
    refine (hc.agrees t' (List.mem_cons_of_mem _ ht')).cons hc.lawful hf ?_ (by simp)
    simpa [Event.ends] using (hc.number_ne ht').symm
  nodup := by
    have := hc.nodup
    rw [List.map_cons, List.nodup_cons] at this
    exact this.2
  all n hn := by
    rw [Session.finish, history_record, running_cons rfl, Bool.and_eq_true] at hn
    obtain ⟨t', ht', rfl⟩ := hc.all n hn.1
    rcases List.mem_cons.1 ht' with rfl | ht'
    · simp [Event.ends] at hn
    · exact ⟨t', ht', rfl⟩

lemma begin (hc : Consistent timing tasks s) (ha : answering? s.history = none)
    (hs : openSkips s.history = 0) (answers : Nat → List Control) :
    Consistent timing
      (⟨⟨s.plays, s.player.begin.generation, s.player.timeline, answers⟩, s.player.cursor⟩ :: tasks)
      { s.record (.began s.plays s.clock.now) with plays := s.plays + 1 } := by
  have hf : Follows timing s.history (.began s.plays s.clock.now) := by
    rw [hc.plays]
    exact .began _ ha hs
  have hnew : ∀ t ∈ tasks, t.play.number ≠ s.plays := by
    intro t ht hn
    have := hc.lawful.not_begins hf (begun_of_running (hc.agrees t ht).running)
    simp [Event.begins, hn] at this
  refine ⟨hc.lawful.cons hf, congrArg Player.begin hc.player, ?_, ?_, ?_, ?_⟩
  · simp [hc.plays, History.plays]
  · intro t ht
    rcases List.mem_cons.1 ht with rfl | ht
    · refine ⟨?_, ?_, ?_, fun _ => ?_⟩
      · simp only [history_record, hc.plays]
        exact hc.lawful.running_began _
      · simp [hc.player]
      · simp only [history_record, outset_began, hc.player]
        rfl
      · simp only [history_record, player_cons, hc.player]
        rfl
    · exact (hc.agrees t ht).cons hc.lawful hf rfl (by simp)
  · rw [List.map_cons, List.nodup_cons]
    refine ⟨fun hmem => ?_, hc.nodup⟩
    obtain ⟨t, ht, hn⟩ := List.mem_map.1 hmem
    exact hnew t ht hn
  · intro n hn
    by_cases hnum : s.plays = n
    · exact ⟨_, List.mem_cons_self, hnum⟩
    · simp only [history_record] at hn
      rw [running_cons (by simpa [Event.begins] using hnum), Bool.and_eq_true] at hn
      obtain ⟨t, ht, hn⟩ := hc.all n hn.1
      exact ⟨t, List.mem_cons_of_mem _ ht, hn⟩

end Consistent

/-! ### Controls and deliveries -/

/-- A session that is consistent with its tasks while a given answer is going on, and while so many
skips are under way. -/
structure Amid (timing : Timing) (tasks : List Task) (answer : Option (Nat × Entry)) (skips : Nat)
    (s : Session) : Prop where
  consistent : Consistent timing tasks s
  answering : answering? s.history = answer
  openSkips : openSkips s.history = skips

/-- No skip is under way before a control and after it. -/
def During (timing : Timing) (tasks : List Task) (answer : Option (Nat × Entry)) (s : Session) :
    Prop :=
  Amid timing tasks answer 0 s

variable {answer : Option (Nat × Entry)}

/-- The clock and the plays set aside do not matter. -/
lemma During.frame (hd : During timing tasks answer s)
    {s' : Session} (hh : s'.history = s.history) (hp : s'.player = s.player)
    (hn : s'.plays = s.plays) : During timing tasks answer s' := by
  obtain ⟨hc, ha, hs⟩ := hd
  refine ⟨⟨?_, ?_, ?_, ?_, hc.nodup, ?_⟩, ?_, ?_⟩ <;> rw [hh]
  · exact hc.lawful
  · rw [hp, hc.player]
  · rw [hn, hc.plays]
  · exact hc.agrees
  · exact hc.all
  · exact ha
  · exact hs

lemma During.perm {tasks' : List Task} (hd : During timing tasks answer s)
    (hp : tasks.Perm tasks') : During timing tasks' answer s :=
  ⟨hd.1.perm hp, hd.2, hd.3⟩

lemma Amid.controlInvariant : ControlInvariant (Amid timing tasks answer) where
  controlled k s c hs := by
    refine ⟨hs.1.record (.controlled ..) (fun _ => rfl) (fun _ => rfl) (by simp), hs.2, ?_⟩
    exact congrArg (· + c.skips) hs.3
  shown k s entry hs := by
    have hopen : 0 < History.openSkips s.history := hs.3 ▸ Nat.succ_pos k
    exact ⟨hs.1.record (.skipping entry _ hopen) (fun _ => rfl) (fun _ => rfl) (by simp), hs.2,
      hs.3⟩
  skipped k s hs := by
    have hopen : 0 < History.openSkips s.history := hs.3 ▸ Nat.succ_pos k
    refine ⟨hs.1.record (.skipped _ hopen) (fun _ => rfl) (fun _ => rfl) (by simp), hs.2, ?_⟩
    exact congrArg (· - 1) hs.3

lemma During.controls (hd : During timing tasks answer s) (cs : List Control) :
    During timing tasks answer (s.controls cs) :=
  Amid.controlInvariant.controls cs hd

lemma During.control (hd : During timing tasks answer s) (c : Control) :
    During timing tasks answer (s.control c) :=
  Amid.controlInvariant.control c hd

lemma During.deliver {play : Play} {place : Fin play.timeline.length}
    (hd : During timing (⟨play, place⟩ :: tasks) none s)
    (hv : verdict play.number s.history = .completed) :
    During timing (⟨play, place⟩ :: tasks)
      (some (play.number, getElem play.timeline place place.isLt))
      (s.deliver play (getElem play.timeline place place.isLt)) := by
  have ha := hd.1.agrees _ List.mem_cons_self
  obtain ⟨ht, hs⟩ := verdict_eq_completed.1 hv
  have he : (History.player timing s.history).timeline[(History.player timing s.history).cursor]? =
      some play.timeline[place] := by
    rw [← ha.timeline_eq ht, ← ha.place ht]
    exact List.getElem?_eq_getElem place.isLt
  exact During.controls
    ⟨hd.1.record (.shown _ _ _ ha.running hd.2 ht hs he) (fun _ => rfl) (fun _ => rfl) (by simp),
      rfl, hd.3⟩ _

/-- After a delivery a play has moved on, or it has lost control and ends. -/
lemma During.present {play : Play} (place : Fin play.timeline.length)
    (hd : During timing (⟨play, place⟩ :: tasks) none s)
    (hv : verdict play.number s.history = .completed) :
    if (s.present play place).player.generation = play.generation then
      During timing (⟨play, place + 1⟩ :: tasks) none (s.present play place)
    else During timing tasks none ((s.present play place).finish play .superseded) := by
  replace hd := hd.deliver hv
  have ha := hd.1.agrees _ List.mem_cons_self
  have hto := ha.takenOver_iff
  rw [← hd.1.player] at hto
  by_cases hg : (s.deliver play play.timeline[place]).player.generation = play.generation
  · have ht : takenOver play.number (s.deliver play play.timeline[place]).history = false := by
      rw [← Bool.not_eq_true]
      exact fun ht => hto.1 ht hg
    have hp : s.present play place = (s.deliver play play.timeline[place]).record
        (.moved play.number (place + 1) (s.deliver play play.timeline[place]).clock.now) :=
      if_pos hg
    have hf : Follows timing (s.deliver play play.timeline[place]).history
        (.moved play.number _ (s.deliver play play.timeline[place]).clock.now) :=
      .moved _ _ _ hd.2 ht
    rw [← ha.place ht] at hf
    have hgp : (s.present play place).player.generation = play.generation := by rw [hp]; exact hg
    rw [if_pos hgp, hp]
    exact ⟨hd.1.move hf, rfl, hd.3⟩
  · have ht := hto.2 hg
    have hp : s.present play place = s.deliver play play.timeline[place] := if_neg hg
    have hv : verdict play.number (s.deliver play play.timeline[place]).history = .superseded :=
      if_pos ht
    have hf : Follows timing (s.deliver play play.timeline[place]).history
        (.ended play.number .superseded (s.deliver play play.timeline[place]).clock.now) := by
      rw [← hv]
      refine .ended _ _ ha.running (fun a hans => ?_) fun hc => by rw [hv] at hc; cases hc
      cases hd.2.symm.trans hans
      exact ⟨rfl, ht⟩
    rw [hp, if_neg hg]
    exact ⟨hd.1.finish hf, rfl, hd.3⟩

/-! ### Turns of a play -/

/-- A timer was set for the wait of the entry to come, and has not run out. -/
def Timed (clock : Clock) (w : Suspended) : Prop :=
  ∀ due, w.hold = .waiting due →
    clock.now ≤ due ∧ ∃ began ≤ clock.now, due = began + clock.lasting w.next.wait

/-- A play waits with good reason: nothing has ended it, and it is parked only during a pause. -/
structure Standing (s : Session) (w : Suspended) : Prop where
  verdict : verdict w.play.number s.history = .completed
  parked : w.hold = .parked → s.player.state = .paused
  timed : Timed s.clock w

end Session

def Suspended.task (w : Suspended) : Task := ⟨w.play, w.place⟩

namespace Session

/-- A play has had a turn: it has ended, or it is left waiting behind the other plays. -/
structure Turned (timing : Timing) (tasks : List Task) (s s' : Session) (left : Option Suspended) :
    Prop where
  suspended : s'.suspended = s.suspended ++ left.toList
  clock : s'.clock = s.clock
  during : During timing (left.toList.map Suspended.task ++ tasks) none s'
  standing : ∀ w ∈ left, Standing s' w

/-- A play ends as the history demands, and if nothing has ended it, at the end of its timeline. -/
lemma During.finish (hd : During timing (t :: tasks) none s)
    (hp : verdict t.play.number s.history = .completed → t.play.timeline.length ≤ t.place) :
    Turned timing tasks s (s.finish t.play (verdict t.play.number s.history)) none := by
  have ha := hd.1.agrees _ List.mem_cons_self
  have hf : Follows timing s.history
      (.ended t.play.number (verdict t.play.number s.history) s.clock.now) := by
    refine .ended _ _ ha.running (fun a hans => by rw [hd.2] at hans; cases hans) fun hv => ?_
    have ht := (verdict_eq_completed.1 hv).1
    rw [← ha.timeline_eq ht, ← ha.place ht]
    exact hp hv
  exact ⟨(List.append_nil _).symm, rfl, ⟨hd.1.finish hf, rfl, hd.3⟩, by simp⟩

lemma During.interruption? (hd : During timing (t :: tasks) none s) :
    s.player.interruption? t.play.generation =
      if verdict t.play.number s.history = .completed then none
      else some (verdict t.play.number s.history) := by
  rw [hd.1.player]
  exact (hd.1.agrees _ List.mem_cons_self).interruption? hd.1.lawful

lemma During.interrupted {outcome : Outcome} (hd : During timing (t :: tasks) none s)
    (hi : s.player.interruption? t.play.generation = some outcome) :
    Turned timing tasks s (s.finish t.play outcome) none := by
  rw [hd.interruption?] at hi
  split at hi
  · cases hi
  case isFalse hv =>
    cases hi
    exact hd.finish fun hc => absurd hc hv

lemma During.verdict (hd : During timing (t :: tasks) none s)
    (hi : s.player.interruption? t.play.generation = none) :
    verdict t.play.number s.history = .completed := by
  rw [hd.interruption?] at hi
  by_contra hv
  rw [if_neg hv] at hi
  cases hi

/-- A play that goes on until it has to wait has had its turn. -/
theorem During.run {play : Play} {place : Nat}
    (hd : During timing (⟨play, place⟩ :: tasks) none s) :
    ∃ left, Turned timing tasks s (Session.run play place s) left := by
  induction place, s using run.induct play with
  | case1 place s h outcome hi =>
    rw [Session.run, dif_pos h, hi]
    exact ⟨none, hd.interrupted hi⟩
  | case2 place s h hi hp =>
    rw [Session.run, dif_pos h, hi]
    simp only [hp, if_true]
    refine ⟨some ⟨play, ⟨place, h⟩, .parked⟩, rfl, rfl, During.frame hd rfl rfl rfl, ?_⟩
    rintro w ⟨⟩
    exact ⟨hd.verdict hi, fun _ => hp, by rintro _ ⟨⟩⟩
  | case3 place s h hi hp hw =>
    rw [Session.run, dif_pos h, hi]
    simp only [hp, hw, if_false, if_true]
    refine ⟨some ⟨play, ⟨place, h⟩, .waiting (s.clock.due play.timeline[place].wait)⟩,
      rfl, rfl, During.frame hd rfl rfl rfl, ?_⟩
    rintro w ⟨⟩
    refine ⟨hd.verdict hi, by rintro ⟨⟩, ?_⟩
    rintro due ⟨⟩
    exact ⟨Nat.le_add_right .., s.clock.now, Nat.le_refl _, rfl⟩
  | case4 place s h hi hp hw hg ih =>
    have hd' := During.present ⟨place, h⟩ hd (hd.verdict hi)
    rw [if_pos hg] at hd'
    rw [cursor_present hg] at ih
    obtain ⟨left, hl⟩ := ih hd'
    rw [Session.run, dif_pos h, hi]
    simp only [hp, hw, if_false, dif_pos hg]
    rw [cursor_present hg]
    refine ⟨left, ?_, ?_, hl.during, hl.standing⟩
    · rw [hl.suspended, suspended_present]
    · rw [hl.clock, clock_present]
  | case5 place s h hi hp hw hg =>
    have hd' := During.present ⟨place, h⟩ hd (hd.verdict hi)
    rw [if_neg hg] at hd'
    rw [Session.run, dif_pos h, hi]
    simp only [hp, hw, if_false, dif_neg hg]
    refine ⟨none, ?_, ?_, hd', by simp⟩
    · simp
    · exact clock_present ..
  | case6 place s h =>
    rw [Session.run, dif_neg h]
    have hv : (s.player.interruption? play.generation).getD .completed =
        History.verdict play.number s.history := by
      rw [During.interruption? hd]
      split <;> simp_all
    rw [hv]
    exact ⟨none, During.finish hd fun _ => Nat.le_of_not_lt h⟩

theorem During.wake {w : Suspended} (hd : During timing (w.task :: tasks) none s) :
    ∃ left, Turned timing tasks s (Session.wake w s) left := by
  unfold Session.wake
  split
  case h_1 outcome hi => exact ⟨none, hd.interrupted hi⟩
  case h_2 hi =>
    have hd' := During.present w.place hd (hd.verdict hi)
    simp only
    split
    case isTrue hg =>
      rw [if_pos hg] at hd'
      rw [cursor_present hg]
      obtain ⟨left, hl⟩ := hd'.run
      refine ⟨left, ?_, ?_, hl.during, hl.standing⟩
      · rw [hl.suspended, suspended_present]
      · rw [hl.clock, clock_present]
    case isFalse hg =>
      rw [if_neg hg] at hd'
      exact ⟨none, by simp, clock_present .., hd', by simp⟩

theorem During.turn {w : Suspended} (hd : During timing (w.task :: tasks) none s)
    (ht : Timed s.clock w) : ∃ left, Turned timing tasks s (Session.turn s w) left := by
  unfold Session.turn
  split
  case h_1 outcome hi => exact ⟨none, hd.interrupted hi⟩
  case h_2 hi hw => exact During.run hd
  case h_3 due hi hw =>
    refine ⟨some w, rfl, rfl, hd.frame rfl rfl rfl, ?_⟩
    rintro w' ⟨⟩
    exact ⟨hd.verdict hi, by simp [hw], ht⟩

/-! ### Steps of a session -/

/-- Everything but the turns of the suspended plays is in order. -/
structure Sound (timing : Timing) (s : Session) : Prop where
  during : During timing (s.suspended.map Suspended.task) none s
  timed : ∀ w ∈ s.suspended, Timed s.clock w

/-- All plays have run until each waits for the clock or for a control. -/
structure Settled (timing : Timing) (s : Session) : Prop where
  during : During timing (s.suspended.map Suspended.task) none s
  standing : ∀ w ∈ s.suspended, Standing s w

lemma Settled.sound (hs : Settled timing s) : Sound timing s :=
  ⟨hs.during, fun w hw => (hs.standing w hw).timed⟩

lemma Settled.start (timing : Timing) (clock : Clock) :
    Settled timing (Session.start timing clock) :=
  ⟨⟨⟨.nil, rfl, rfl, (by nofun), .nil, (by nofun)⟩, rfl, rfl⟩, by nofun⟩

lemma Sound.act (hs : Sound timing s) (a : Action) :
    Sound timing (s.act a) ∧ (s.act a).clock = s.clock := by
  cases a with
  | control c =>
    refine ⟨⟨?_, ?_⟩, clock_control s c⟩ <;> simp only [Session.act, suspended_control]
    · exact hs.during.control c
    · rw [clock_control]
      exact hs.timed
  | play answers =>
    obtain ⟨left, hl⟩ := During.run
      ⟨hs.during.1.begin hs.during.2 hs.during.3 answers, rfl, hs.during.3⟩
    have hsusp : (s.play answers).suspended = s.suspended ++ left.toList := hl.suspended
    have hclock : (s.play answers).clock = s.clock := hl.clock
    refine ⟨⟨?_, fun w hw => ?_⟩, hclock⟩
    · simp only [Session.act, hsusp, List.map_append]
      exact hl.during.perm List.perm_append_comm
    · simp only [Session.act, hsusp, hclock] at hw ⊢
      rcases List.mem_append.1 hw with hw | hw
      · exact hs.timed w hw
      · exact hclock ▸ (hl.standing w (by simpa using hw)).timed

lemma Sound.acts (hs : Sound timing s) (actions : List Action) :
    Sound timing (actions.foldl Session.act s) ∧ (actions.foldl Session.act s).clock = s.clock := by
  induction actions generalizing s with
  | nil => exact ⟨hs, rfl⟩
  | cons a actions ih =>
    obtain ⟨ha, hclock⟩ := hs.act a
    exact ⟨(ih ha).1, (ih ha).2.trans hclock⟩

lemma During.live {w : Suspended} (hd : During timing tasks none s) (hw : w.task ∈ tasks)
    (hst : Standing s w) : Live w.play.number s.history :=
  ⟨(hd.1.agrees _ hw).running, (verdict_eq_completed.1 hst.verdict).1⟩

/-- A turn of another play leaves a standing play standing: the other play has been taken over. -/
lemma Standing.turn {w w' : Suspended} (hd : During timing (w'.task :: tasks) none s)
    (hw : w.task ∈ tasks) (hst : Standing s w) :
    Session.turn s w' = s.finish w'.play .superseded ∧
      Standing (s.finish w'.play .superseded) w := by
  have hne : w.play.number ≠ w'.play.number := hd.1.number_ne hw
  have hr' := (hd.1.agrees _ List.mem_cons_self).running
  have ht : takenOver w'.play.number s.history = true := by
    by_contra ht
    exact hne ((hd.live (List.mem_cons_of_mem _ hw) hst).unique ⟨hr', by simpa using ht⟩)
  have hv : History.verdict w'.play.number s.history = .superseded := if_pos ht
  have hi : s.player.interruption? w'.play.generation = some .superseded :=
    hd.interruption?.trans (by simp [Suspended.task, hv])
  refine ⟨by simp only [Session.turn, hi], ?_, hst.parked, hst.timed⟩
  have hb : (Event.ended w'.play.number .superseded s.clock.now).begins w.play.number = false := rfl
  rw [Session.finish, history_record, History.verdict, takenOver_cons hb, stopped_cons hb]
  exact hst.verdict

/-- Once every play has had its turn, none is left but one that waits with good reason. -/
theorem Sound.settle (hs : Sound timing s) :
    Settled timing s.settle ∧ s.settle.clock = s.clock := by
  have turns : ∀ (rest : List Suspended) (s : Session),
      During timing (s.suspended.map Suspended.task ++ rest.map Suspended.task) none s →
      (∀ w ∈ s.suspended, Standing s w) → (∀ w ∈ rest, Timed s.clock w) →
      Settled timing (rest.foldl Session.turn s) ∧ (rest.foldl Session.turn s).clock = s.clock := by
    intro rest
    induction rest with
    | nil => exact fun s hd hst _ => ⟨⟨by simpa using hd, hst⟩, rfl⟩
    | cons w rest ih =>
      intro s hd hst ht
      replace hd := hd.perm List.perm_middle
      obtain ⟨left, hl⟩ := hd.turn (ht w List.mem_cons_self)
      have hnext := ih (Session.turn s w) ?_ ?_ ?_
      · exact ⟨hnext.1, hnext.2.trans hl.clock⟩
      · rw [hl.suspended, List.map_append]
        refine hl.during.perm ?_
        rw [← List.append_assoc]
        exact List.perm_append_comm.append_right _
      · intro k hk
        rw [hl.suspended] at hk
        rcases List.mem_append.1 hk with hk | hk
        · obtain ⟨heq, hk⟩ := (hst k hk).turn hd
            (List.mem_append_left _ (List.mem_map_of_mem hk))
          rw [heq]
          exact hk
        · exact hl.standing k (by simpa using hk)
      · rw [hl.clock]
        exact fun w' hw' => ht w' (List.mem_cons_of_mem _ hw')
  exact turns s.suspended _ (hs.during.frame rfl rfl rfl) (by simp) hs.timed

lemma Settled.length_le (hs : Settled timing s) : s.suspended.length ≤ 1 := by
  match hw : s.suspended with
  | [] => simp
  | [w] => simp
  | w :: w' :: rest =>
    have hd := hs.during
    have hlive : ∀ v ∈ s.suspended, Live v.play.number s.history := fun v hv =>
      hd.live (List.mem_map_of_mem hv) (hs.standing v hv)
    have := (hlive w (by simp [hw])).unique (hlive w' (by simp [hw]))
    have hnd := hd.1.nodup
    simp [hw, Suspended.task, this] at hnd

lemma Settled.suspended_cases (hs : Settled timing s) :
    s.suspended = [] ∨ ∃ w, s.suspended = [w] := by
  match hw : s.suspended with
  | [] => exact .inl rfl
  | [w] => exact .inr ⟨w, rfl⟩
  | _ :: _ :: _ =>
    have := hs.length_le
    simp [hw] at this

lemma Settled.during_singleton {w : Suspended} (hs : Settled timing s) (hw : s.suspended = [w]) :
    During timing [w.task] none s := by
  have := hs.during
  rwa [hw] at this

/-- Nothing has ended the play that waits. -/
lemma Settled.interruption? {w : Suspended} (hs : Settled timing s) (hw : s.suspended = [w]) :
    s.player.interruption? w.play.generation = none :=
  (hs.during_singleton hw).interruption?.trans (if_pos (hs.standing w (by simp [hw])).verdict)

/-! ### The passing of time -/

section Advance

variable {target : Nat} {w : Suspended}

lemma advanceTo_nil (hw : s.suspended = []) :
    advanceTo target s = { s with clock := s.clock.moveTo target } := by
  rw [advanceTo]
  simp [nextDue?, hw]

lemma advanceTo_parked (hw : s.suspended = [w]) (hp : w.hold = .parked) :
    advanceTo target s = { s with clock := s.clock.moveTo target } := by
  rw [advanceTo]
  simp [nextDue?, hw, Suspended.due?, hp]

lemma advanceTo_waiting {due : Nat} (hw : s.suspended = [w]) (hd : w.hold = .waiting due) :
    advanceTo target s =
      if target < due then { s with clock := s.clock.moveTo target }
      else advanceTo target (wake w { s with clock := s.clock.moveTo due, suspended := [] }) := by
  have hdue : s.nextDue? = some due := by simp [nextDue?, hw, Suspended.due?, hd]
  have hdrop : s.suspended.dropWhile (·.due? ≠ some due) = [w] := by
    simp [hw, Suspended.due?, hd]
  have htake : s.suspended.takeWhile (·.due? ≠ some due) = [] := by
    simp [hw, Suspended.due?, hd]
  rw [advanceTo, hdue]
  simp only
  split
  · rfl
  · split
    case h_1 hnil =>
      rw [hdrop] at hnil
      cases hnil
    case h_2 w' after hcons =>
      rw [hdrop] at hcons
      cases hcons
      rw [htake]
      rfl

end Advance

/-- Where its play is woken by the timer, a session stays settled. -/
lemma Settled.wake {w : Suspended} (hs : Settled timing s) (hw : s.suspended = [w]) (due : Nat) :
    Settled timing (Session.wake w { s with clock := s.clock.moveTo due, suspended := [] }) ∧
      (Session.wake w { s with clock := s.clock.moveTo due, suspended := [] }).clock =
        s.clock.moveTo due ∧
      Suspended.pending
          (Session.wake w { s with clock := s.clock.moveTo due, suspended := [] }).suspended <
        Suspended.pending s.suspended := by
  have hd : During timing [w.task] none { s with clock := s.clock.moveTo due, suspended := [] } :=
    (hs.during_singleton hw).frame rfl rfl rfl
  obtain ⟨left, hl⟩ := hd.wake
  have hsusp : (Session.wake w { s with
      clock := s.clock.moveTo due, suspended := [] }).suspended = left.toList := hl.suspended
  refine ⟨⟨?_, fun v hv => hl.standing v (by simpa [hsusp] using hv)⟩, hl.clock, ?_⟩
  · simpa [hsusp] using hl.during
  · simpa [hw, Suspended.pending] using
      pending_wake w { s with clock := s.clock.moveTo due, suspended := [] }

/-- Without a timer that runs out the clock moves freely. -/
lemma Settled.moveTo {target : Nat} (hs : Settled timing s) (ht : s.clock.now ≤ target)
    (hlate : ∀ w ∈ s.suspended, ∀ due, w.hold = .waiting due → target < due) :
    Settled timing { s with clock := s.clock.moveTo target } := by
  refine ⟨hs.during.frame rfl rfl rfl, fun w hw => ?_⟩
  obtain ⟨hv, hpark, htimed⟩ := hs.standing w hw
  refine ⟨hv, hpark, fun due hd => ?_⟩
  obtain ⟨hle, began, hb, heq⟩ := htimed due hd
  exact ⟨Nat.le_of_lt (hlate w hw due hd), began, Nat.le_trans hb ht, heq⟩

/-- On its way to a time a settled session wakes its play again and again, until no timer is left
that runs out by then. -/
theorem Settled.advanceTo_induction {P Q : Session → Prop} {target : Nat}
    (wakes : ∀ s w due, Settled timing s → P s → s.suspended = [w] → w.hold = .waiting due →
      s.clock.now ≤ due → due ≤ target →
      P (Session.wake w { s with clock := s.clock.moveTo due, suspended := [] }))
    (moves : ∀ s, Settled timing s → P s → s.clock.now ≤ target →
      (∀ w ∈ s.suspended, ∀ due, w.hold = .waiting due → target < due) →
      Q { s with clock := s.clock.moveTo target })
    (hs : Settled timing s) (hP : P s) (ht : s.clock.now ≤ target) :
    Q (Session.advanceTo target s) := by
  induction hp : Suspended.pending s.suspended using Nat.strongRecOn generalizing s with
  | ind p ih =>
    obtain hw | ⟨w, hw⟩ := hs.suspended_cases
    · rw [advanceTo_nil hw]
      exact moves s hs hP ht (by simp [hw])
    · match hh : w.hold with
      | .parked =>
        rw [advanceTo_parked hw hh]
        exact moves s hs hP ht (by simp [hw, hh])
      | .waiting due =>
        rw [advanceTo_waiting hw hh]
        split
        case isTrue hlt => exact moves s hs hP ht (by simp [hw, hh, hlt])
        case isFalse hlt =>
          obtain ⟨hset, hclock, hpend⟩ := hs.wake hw due
          have hdue := ((hs.standing w (by simp [hw])).timed due hh).1
          refine ih _ (hp ▸ hpend) hset
            (wakes s w due hs hP hw hh hdue (Nat.le_of_not_lt hlt)) ?_ rfl
          rw [hclock]
          exact Nat.le_of_not_lt hlt

/-- The clock comes to the time, and every timer that is left runs out later. -/
theorem Settled.advanceTo {target : Nat} (hs : Settled timing s) (ht : s.clock.now ≤ target) :
    Settled timing (Session.advanceTo target s) ∧
      (Session.advanceTo target s).clock = s.clock.moveTo target ∧
      ∀ w ∈ (Session.advanceTo target s).suspended,
        ∀ due, w.hold = .waiting due → target < due := by
  refine Settled.advanceTo_induction (P := fun t => t.clock.moveTo target = s.clock.moveTo target)
    (Q := fun t => Settled timing t ∧ t.clock = s.clock.moveTo target ∧
      ∀ w ∈ t.suspended, ∀ due, w.hold = .waiting due → target < due)
    (fun t w due hset hclock hw hh _ _ => ?_) (fun t hset hclock hle hlate => ?_) hs rfl ht
  · rw [(hset.wake hw due).2.1]
    exact hclock
  · exact ⟨hset.moveTo hle hlate, hclock, hlate⟩

end Session

def SessionStep.duration : SessionStep → Nat
  | .act _ => 0
  | .advance duration => duration

namespace Session

theorem Settled.step (hs : Settled timing s) (step : SessionStep) :
    Settled timing (s.step step) ∧
      (s.step step).clock = s.clock.moveTo (s.clock.now + step.duration) := by
  cases step with
  | act actions =>
    obtain ⟨ha, hclock⟩ := hs.sound.acts actions
    obtain ⟨hset, hclock'⟩ := ha.settle
    exact ⟨hset, hclock'.trans hclock⟩
  | advance duration =>
    obtain ⟨ha, hclock, -⟩ := hs.advanceTo (Nat.le_add_right s.clock.now duration)
    obtain ⟨hset, hclock'⟩ := ha.sound.settle
    exact ⟨hset, hclock'.trans hclock⟩

def after (timing : Timing) (clock : Clock) (steps : List SessionStep) : Session :=
  steps.foldl step (start timing clock)

lemma after_append (timing : Timing) (clock : Clock) (steps steps' : List SessionStep) :
    after timing clock (steps ++ steps') = steps'.foldl step (after timing clock steps) :=
  List.foldl_append ..

/-- Every step leaves a settled session, and the clock shows the time that has passed. -/
theorem settled_after (timing : Timing) (clock : Clock) (steps : List SessionStep) :
    Settled timing (after timing clock steps) ∧
      (after timing clock steps).clock =
        clock.moveTo (clock.now + (steps.map SessionStep.duration).sum) := by
  induction steps using List.reverseRecOn with
  | nil => exact ⟨.start timing clock, rfl⟩
  | append_singleton steps step ih =>
    obtain ⟨hset, hclock⟩ := ih
    obtain ⟨hset', hclock'⟩ := hset.step step
    rw [after_append]
    refine ⟨hset', hclock'.trans ?_⟩
    rw [hclock, List.map_append, List.sum_append, ← Nat.add_assoc]
    rfl

end Session
end LessonScript
