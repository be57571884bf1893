import LessonScript.Proofs.Playback.Turns

/-!
# Sessions keep the pace

Whatever is asked of a session, each delivery comes when its wait is over, and each play under way
is held back by its wait or by a pause. A round gives every suspended play its turn: this is where
a wait begins for a play that was parked, and no other play has a say in it, since at most one has
not been taken over.
-/

namespace LessonScript
namespace History

/-- A play that nothing has ended or interrupted by now had not been before. -/
lemma Lawful.running_of_append {timing : Timing} {n : Nat} {later past : History}
    (hl : Lawful timing (later ++ past)) (hb : past.any (·.begins n) = true)
    (hr : running n (later ++ past) = true) (hv : verdict n (later ++ past) = .completed) :
    running n past = true ∧ verdict n past = .completed := by
  induction later with
  | nil => exact ⟨hr, hv⟩
  | cons e later ih =>
    rw [List.cons_append] at hl hr hv
    obtain ⟨hl, hf⟩ := hl.uncons
    have hb' : (later ++ past).any (·.begins n) = true := by simp [hb]
    have hbe := hl.not_begins hf hb'
    rw [running_cons hbe, Bool.and_eq_true] at hr
    rw [verdict_eq_completed, takenOver_cons hbe, stopped_cons hbe, Bool.or_eq_false_iff,
      Bool.or_eq_false_iff] at hv
    exact ih hl hr.1 (verdict_eq_completed.2 ⟨hv.1.2, hv.2.2⟩)

end History

namespace Session
open History

variable {timing : Timing} {rounds : List Moment} {s : Session} {w : Suspended} {m : Moment}

/-- A paced session, each of whose suspended plays is held back. -/
structure Holding (timing : Timing) (rounds : List Moment) (s : Session) : Prop where
  paced : Paced timing rounds s
  held : ∀ w ∈ s.suspended, Held timing rounds s w

/-! ### Rounds -/

/-- A suspended play in a round: it has its turn after a pause, or its wait goes on. -/
inductive Ready (timing : Timing) (rounds : List Moment) (s : Session) (w : Suspended) : Prop
  | turn (m : Moment) (hw : w.hold = .parked) (ha : AtTurn timing rounds s w.play.number m)
  | waiting (hw : w.hold ≠ .parked) (hh : Held timing rounds s w)

lemma Paced.isLeast_round {n : Nat} {acts : History} (hp : Paced timing rounds s)
    (hm : IsLeast (openTurns timing rounds n s.history acts) m) :
    IsLeast (openTurns timing (rounds ++ [s.moment]) n s.history acts) m := by
  refine ⟨⟨hm.1.1.round_mono _, hm.1.2⟩, fun m' hm' => ?_⟩
  rcases hm'.1.of_round with ht | rfl
  · exact hm.2 ⟨ht, hm'.2⟩
  · exact (hp.le_moment hm.1.1).1

lemma Paced.round (hp : Paced timing rounds s) : Paced timing (rounds ++ [s.moment]) s where
  player := hp.player
  sorted := hp.sorted
  past := hp.past
  rounds_le m hm := by
    rcases List.mem_append.1 hm with hm | hm
    · exact hp.rounds_le m hm
    · obtain rfl := List.mem_singleton.1 hm
      exact ⟨le_refl _, hp.past⟩
  delivered n entry t past hs := by
    obtain ⟨m, hm, ht⟩ := hp.delivered n entry t past hs
    exact ⟨m, hp.isLeast_round hm, ht⟩

/-- A parked play has its first turn without a pause in this round, or none yet. -/
lemma Held.ready (hh : Held timing rounds s w) (hp : Paced timing rounds s) :
    Ready timing (rounds ++ [s.moment]) s w := by
  cases hh with
  | parked hw hno =>
    refine .turn s.moment hw ⟨.round (by simp), rfl, rfl, by rw [hp.player]; rfl, fun m hm => ?_⟩
    refine hm.1.of_round.resolve_left fun ht => ?_
    rw [Set.eq_empty_iff_forall_notMem] at hno
    exact hno m ⟨ht, hm.2⟩
  | waiting m hm hw hn =>
    exact .waiting (by simp [hw]) (.waiting m (hp.isLeast_round hm) hw hn)

lemma Ready.finish {play : Play} {o : Outcome} (hr : Ready timing rounds s w)
    (hne : play.number ≠ w.play.number) (ho : o ≠ .completed) :
    Ready timing rounds (s.finish play o) w := by
  have hap := (Apart.refl w.play.number s).finish hne o
  have hplayer : (s.finish play o).player = s.player := by
    cases o with
    | completed => exact absurd rfl ho
    | stopped | superseded => rfl
  cases hr with
  | turn m hw ha => exact .turn m hw (ha.apart hap rfl (by rw [hplayer]))
  | waiting hw hh => exact .waiting hw (hh.apart hap rfl)

/-- In the middle of a round some plays have yet to have their turn. -/
structure Midround (timing : Timing) (rounds : List Moment) (rest : List Suspended) (s : Session) :
    Prop where
  during : During timing (s.suspended.map Suspended.task ++ rest.map Suspended.task) none s
  timed : ∀ w ∈ rest, Timed s.clock w
  holding : Holding timing rounds s
  ready : ∀ w ∈ rest, verdict w.play.number s.history = .completed → Ready timing rounds s w

namespace Midround

variable {rest : List Suspended}

/-- Where a play goes on, all others have been taken over. -/
lemma not_live {w' : Suspended} {left : Option Suspended} {s' : Session}
    (hd : During timing (w.task :: (s.suspended ++ rest).map Suspended.task) none s)
    (hv : verdict w.play.number s.history = .completed)
    (hl : Turned timing ((s.suspended ++ rest).map Suspended.task) s s' left)
    (hap : Apart w'.play.number s s') (hw' : w' ∈ s.suspended ++ rest) :
    verdict w'.play.number s'.history ≠ .completed := by
  intro hv'
  have hmem : w'.task ∈ (s.suspended ++ rest).map Suspended.task := List.mem_map_of_mem hw'
  obtain ⟨later, heq, -⟩ := hap
  have hlaw := hl.during.1.lawful
  have hrun' := (hl.during.1.agrees _ (List.mem_append_right _ hmem)).running
  rw [heq] at hlaw hrun' hv'
  have hbegun := begun_of_running (hd.1.agrees _ (List.mem_cons_of_mem _ hmem)).running
  obtain ⟨hrun', hv'⟩ := hlaw.running_of_append hbegun hrun' hv'
  have hrun := (hd.1.agrees _ List.mem_cons_self).running
  exact hd.1.number_ne hmem (Live.unique ⟨hrun', (verdict_eq_completed.1 hv').1⟩
    ⟨hrun, (verdict_eq_completed.1 hv).1⟩)

lemma turn (hr : Midround timing rounds (w :: rest) s) :
    Midround timing rounds rest (s.turn w) := by
  have hd : During timing (w.task :: (s.suspended ++ rest).map Suspended.task) none s := by
    rw [List.map_append]
    exact hr.during.perm List.perm_middle
  have hne : ∀ w' ∈ s.suspended ++ rest, w.play.number ≠ w'.play.number := fun w' hw' =>
    (hd.1.number_ne (List.mem_map_of_mem hw')).symm
  have hrest : ∀ w' ∈ rest, w' ∈ s.suspended ++ rest := fun w' => List.mem_append_right _
  obtain ⟨left, hl⟩ := hd.turn (hr.timed w List.mem_cons_self)
  have hduring : During timing ((s.turn w).suspended.map Suspended.task ++
      rest.map Suspended.task) none (s.turn w) := by
    rw [hl.suspended, List.map_append]
    refine hl.during.perm ?_
    rw [List.map_append, ← List.append_assoc]
    exact List.perm_append_comm.append_right _
  have htimed : ∀ w' ∈ rest, Timed (s.turn w).clock w' := by
    rw [hl.clock]
    exact fun w' hw' => hr.timed w' (List.mem_cons_of_mem _ hw')
  by_cases hv : verdict w.play.number s.history = .completed
  · have hi : s.player.interruption? w.play.generation = none :=
      hd.interruption?.trans (if_pos hv)
    have others : ∀ w' ∈ rest, Apart w'.play.number s (s.turn w) →
        verdict w'.play.number (s.turn w).history ≠ .completed := fun w' hw' hap =>
      not_live hd hv hl hap (hrest w' hw')
    cases hr.ready w List.mem_cons_self hv with
    | turn m hw ha =>
      have hturn : s.turn w = run w.play w.place s := by simp only [Session.turn, hi, hw]
      have hap : ∀ w' ∈ s.suspended ++ rest, Apart w'.play.number s (s.turn w) := fun w' hw' => by
        rw [hturn]
        exact (Apart.refl _ s).run (hne w' hw') _
      obtain ⟨hp, hheld⟩ := hr.holding.paced.run w.play w.place ha
      rw [← hturn] at hp hheld
      refine ⟨hduring, htimed, ⟨hp, fun w' hw' => ?_⟩, fun w' hw' hv' => ?_⟩
      · refine (hheld w' hw').elim (fun hw' => ?_) id
        exact (hr.holding.held w' hw').apart (hap w' (List.mem_append_left _ hw')) hl.clock
      · exact absurd hv' (others w' hw' (hap w' (hrest w' hw')))
    | waiting hw hh =>
      have hturn : s.turn w = s.suspend w := by
        simp only [Session.turn, hi]
        cases hhold : w.hold with
        | parked => exact absurd hhold hw
        | waiting due => rfl
      have hap : ∀ n, Apart n s (s.turn w) := fun n => by
        rw [hturn]
        exact Apart.refl n s
      have hp := hr.holding.paced
      refine ⟨hduring, htimed, ⟨?_, fun w' hw' => ?_⟩, fun w' hw' hv' => ?_⟩
      · rw [hturn]
        exact hp.frame rfl rfl rfl (Nat.le_refl _)
      · rw [hturn] at hw'
        rcases List.mem_append.1 hw' with hw' | hw'
        · exact (hr.holding.held w' hw').apart (hap _) hl.clock
        · obtain rfl := List.mem_singleton.1 hw'
          exact hh.apart (hap _) hl.clock
      · exact absurd hv' (others w' hw' (hap _))
  · have hi : s.player.interruption? w.play.generation =
        some (verdict w.play.number s.history) := hd.interruption?.trans (if_neg hv)
    have hturn : s.turn w = s.finish w.play (verdict w.play.number s.history) := by
      simp only [Session.turn, hi]
    rw [hturn] at hduring htimed ⊢
    refine ⟨hduring, htimed, ⟨hr.holding.paced.finish .., fun w' hw' => ?_⟩, fun w' hw' hv' => ?_⟩
    · refine (hr.holding.held w' hw').apart ?_ rfl
      exact (Apart.refl _ s).finish (hne w' (List.mem_append_left _ hw')) _
    · refine (hr.ready w' (List.mem_cons_of_mem _ hw') ?_).finish (hne w' (hrest w' hw')) hv
      rwa [Session.finish, history_record, verdict, takenOver_cons rfl, stopped_cons rfl] at hv'

lemma turns (hr : Midround timing rounds rest s) :
    Holding timing rounds (rest.foldl Session.turn s) := by
  induction rest generalizing s with
  | nil => exact hr.holding
  | cons w rest ih => exact ih hr.turn

end Midround

theorem Holding.settle (hs : Sound timing s) (hh : Holding timing rounds s) :
    Holding timing (rounds ++ [s.moment]) s.settle := by
  have hp := hh.paced.round
  refine Midround.turns (s := { s with suspended := [] }) ⟨?_, hs.timed, ⟨?_, by nofun⟩, ?_⟩
  · exact hs.during.frame rfl rfl rfl
  · exact hp.frame rfl rfl rfl (Nat.le_refl _)
  · intro w hw _
    cases (hh.held w hw).ready hh.paced with
    | turn m hw ha => exact .turn m hw (ha.apart (Apart.refl ..) rfl rfl)
    | waiting hw hh => exact .waiting hw (hh.apart (Apart.refl ..) rfl)

/-! ### Steps -/

lemma Holding.act (hs : Sound timing s) (hh : Holding timing rounds s) (a : Action) :
    Holding timing rounds (s.act a) := by
  cases a with
  | control c =>
    refine ⟨hh.paced.control c, fun w hw => ?_⟩
    rw [Session.act, suspended_control] at hw
    exact (hh.held w hw).apart ((Apart.refl _ s).control c) (clock_control s c)
  | play answers =>
    have hp : Paced timing rounds
        { s.record (.began s.plays s.clock.now) with plays := s.plays + 1 } :=
      (hh.paced.record_of_none rfl rfl).frame rfl rfl rfl (Nat.le_refl s.clock.now)
    have ha : AtTurn timing rounds (s.record (.began s.plays s.clock.now)) s.plays _ :=
      hh.paced.atTurn_record rfl rfl
    have hturn : AtTurn timing rounds
        { s.record (.began s.plays s.clock.now) with plays := s.plays + 1 } s.plays _ :=
      ha.apart (Apart.refl ..) rfl rfl
    obtain ⟨hp', hheld⟩ := hp.run
      ⟨s.plays, s.player.begin.generation, s.player.timeline, answers⟩ s.player.cursor hturn
    refine ⟨hp', fun w hw => (hheld w hw).elim (fun hw => ?_) id⟩
    have hne := (hs.older hw).2
    have hbegan : Apart w.play.number s
        { s.record (.began s.plays s.clock.now) with plays := s.plays + 1 } :=
      (Apart.refl _ s).record (by simpa [Event.play?] using hne.symm)
    exact (hh.held w hw).apart (hbegan.run hne.symm _) (hs.act (.play answers)).2

lemma Holding.acts (hs : Sound timing s) (hh : Holding timing rounds s) (actions : List Action) :
    Holding timing rounds (actions.foldl Session.act s) := by
  induction actions generalizing s with
  | nil => exact hh
  | cons a actions ih => exact ih (hs.act a).1 (hh.act hs a)

/-- A wait that has begun is over when its timer runs out, and no sooner. -/
theorem Holding.advanceTo {target : Nat} (hs : Settled timing s) (hh : Holding timing rounds s)
    (ht : s.clock.now ≤ target) : Holding timing rounds (Session.advanceTo target s) := by
  refine Settled.advanceTo_induction (P := Holding timing rounds) (Q := Holding timing rounds)
    (fun s w due hset hh hw hhold hle _ => ?_) (fun s hset hh hle hlate => ?_) hs hh ht
  · have hp : Paced timing rounds { s with clock := s.clock.moveTo due, suspended := [] } :=
      hh.paced.frame rfl rfl rfl hle
    cases hh.held w (by simp [hw]) with
    | parked hpark => exact absurd (hhold.symm.trans hpark) (by nofun)
    | waiting m hm hwait =>
      obtain rfl : due = m.time + s.clock.lasting w.next.wait := by
        simpa using hhold.symm.trans hwait
      obtain ⟨hp', hheld⟩ := hp.wake (w := w) ⟨m, hm, rfl⟩
      exact ⟨hp', fun w' hw' => (hheld w' hw').resolve_left (by simp)⟩
  · refine ⟨hh.paced.frame rfl rfl rfl hle, fun w hw => ?_⟩
    cases hh.held w hw with
    | parked hpark hno => exact .parked hpark hno
    | waiting m hm hwait => exact .waiting m hm hwait (.inl (hlate w hw _ hwait))

theorem Holding.step (hs : Settled timing s) (hh : Holding timing rounds s) (st : SessionStep) :
    Holding timing (rounds ++ [(s.proceed st).moment]) (s.step st) := by
  rw [← settle_proceed]
  cases st with
  | act actions => exact (hh.acts hs.sound actions).settle (hs.sound.acts actions).1
  | advance duration =>
    have hle := Nat.le_add_right s.clock.now duration
    exact (hh.advanceTo hs hle).settle (hs.advanceTo hle).1.sound

/-- However a session goes, its deliveries come on time, and its plays are held back in between. -/
theorem holding_after (timing : Timing) (clock : Clock) (steps : List SessionStep) :
    Holding timing (Session.rounds (start timing clock) steps) (after timing clock steps) := by
  induction steps using List.reverseRecOn with
  | nil =>
    refine ⟨⟨rfl, .nil, by nofun, by nofun, fun n entry t past hs => ?_⟩, by nofun⟩
    exact absurd (List.suffix_nil.1 hs) (by simp)
  | append_singleton steps st ih =>
    rw [rounds_append, after_append]
    exact ih.step (settled_after timing clock steps).1 st

end Session
end LessonScript
