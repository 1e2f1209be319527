import HealthProbe.Proofs.Counters.Looks
import Mathlib.Logic.Relation

/-! # A watch over the counters

Events are counted at their instants while a watch looks at the counters on every tick of an interval. The tick
at the start is let go, and the watch ends with a look at the cancellation. Of all that is due at one instant
anything may be next, so that a tick may come before the cancellation of its instant or never, and an event
before the look of its instant or after it; time passes only while nothing keeps it. However they take turns, the
log is one of looks as they should be.
-/
namespace HealthProbe.SnapshotLog

inductive Stage
  | starting
  | waiting
  | done
  deriving DecidableEq, Repr

def Stage.left : Stage → Nat
  | .starting => 2
  | .waiting => 1
  | .done => 0

structure Watch where
  clock : Nat
  pending : List TimedEvent
  counters : Counters
  due : Nat
  stage : Stage
  log : List (Nat × Counters)
  deriving DecidableEq, Repr

namespace Watch
variable {before : List Event} {events counted : List TimedEvent} {interval cancel : Nat} {w v : Watch}
  {looks : List (Nat × List Event)}

def start (before : List Event) (events : List TimedEvent) : Watch :=
  ⟨0, events, Counters.empty.recordAll before, 0, .starting, []⟩

def looked (w : Watch) : List (Nat × Counters) :=
  if w.counters.isEmpty then w.log else w.log ++ [(w.clock, w.counters)]

inductive Step (interval cancel : Nat) : Watch → Watch → Prop
  | count {w : Watch} {front back : List TimedEvent} {e : TimedEvent}
      (next : w.pending = front ++ e :: back) (now : e.time = w.clock) :
      Step interval cancel w { w with pending := front ++ back, counters := w.counters.record e.event }
  | begin {w : Watch} (early : w.stage = .starting) (due : w.due ≤ w.clock) :
      Step interval cancel w { w with stage := .waiting, due := w.due + interval }
  | tick {w : Watch} (waits : w.stage = .waiting) (due : w.due ≤ w.clock) :
      Step interval cancel w { w with due := w.due + interval, log := w.looked }
  | stop {w : Watch} (waits : w.stage = .waiting) (cancelled : cancel ≤ w.clock) :
      Step interval cancel w { w with stage := .done, log := w.looked }
  | pass {w : Watch} {t : Nat} (waits : w.stage = .waiting) (later : w.clock < t)
      (early : ∀ e ∈ w.pending, t ≤ e.time) (untilTick : t ≤ w.due) (untilCancel : t ≤ cancel) :
      Step interval cancel w { w with clock := t }

def Rests (interval cancel : Nat) (w : Watch) : Prop := ∀ v, ¬Step interval cancel w v

/-! ## One step -/

def IsAt (interval cancel : Nat) (w : Watch) (ts : List Nat) : Prop :=
  match w.stage with
  | .starting => ts = [] ∧ w.due = 0 ∧ w.clock = 0
  | .waiting => ∃ k, ts = multiples interval k ∧ w.due = (k + 1) * interval ∧ k * interval ≤ w.clock ∧
      w.clock ≤ w.due ∧ w.clock ≤ cancel
  | .done => ∃ k, ts = multiples interval k ++ [cancel] ∧ k * interval ≤ cancel ∧ cancel ≤ (k + 1) * interval

structure Tracks (before : List Event) (events : List TimedEvent) (interval cancel : Nat) (w : Watch)
    (counted : List TimedEvent) (looks : List (Nat × List Event)) : Prop where
  perm : events.Perm (counted ++ w.pending)
  past : ∀ e ∈ counted, e.time ≤ w.clock
  ahead : ∀ e ∈ w.pending, w.clock ≤ e.time
  counters : w.counters = Counters.empty.recordAll (before ++ counted.map TimedEvent.event)
  log : w.log = logged looks
  recorded : ∀ l ∈ looks, Recorded before events l.1 l.2
  grows : looks.Pairwise fun a b => a.2.Sublist b.2
  kept : ∀ l ∈ looks, l.2.Sublist (before ++ counted.map TimedEvent.event)
  place : w.IsAt interval cancel (looks.map Prod.fst)

theorem tracks_start (before : List Event) (events : List TimedEvent) (interval cancel : Nat) :
    (start before events).Tracks before events interval cancel [] [] where
  perm := .refl _
  past := by simp
  ahead := fun _ _ => Nat.zero_le _
  counters := by simp [start]
  log := rfl
  recorded := by simp
  grows := .nil
  kept := by simp
  place := ⟨rfl,rfl,rfl⟩

/-- A look sees what has been counted. -/
theorem Tracks.looked (h : w.Tracks before events interval cancel counted looks) (due : Nat) (stage : Stage)
    (place : IsAt interval cancel { w with due := due, stage := stage, log := w.looked }
      (looks.map Prod.fst ++ [w.clock])) :
    Tracks before events interval cancel { w with due := due, stage := stage, log := w.looked } counted
      (looks ++ [(w.clock, before ++ counted.map TimedEvent.event)]) := by
  refine { h with log := ?_, recorded := ?_, grows := ?_, kept := ?_, place := ?_ }
  · simp only [Watch.looked, logged_append, logged_singleton, h.counters, h.log,
      Counters.isEmpty_recordAll_empty]
    split
    · rw [List.append_nil]
    · rfl
  · rw [List.forall_mem_append, List.forall_mem_singleton]
    exact ⟨h.recorded,counted,w.pending,rfl,h.perm,h.past,h.ahead⟩
  · refine List.pairwise_append.mpr ⟨h.grows,List.pairwise_singleton ..,fun l hl l' hl' => ?_⟩
    rw [List.mem_singleton.mp hl']
    exact h.kept l hl
  · rw [List.forall_mem_append, List.forall_mem_singleton]
    exact ⟨h.kept,.refl _⟩
  · rw [List.map_append]
    exact place

theorem Tracks.counts {front back : List TimedEvent} {e : TimedEvent}
    (h : w.Tracks before events interval cancel counted looks) (next : w.pending = front ++ e :: back)
    (now : e.time = w.clock) : Tracks before events interval cancel
      { w with pending := front ++ back, counters := w.counters.record e.event } (counted ++ [e]) looks := by
  refine { h with perm := ?_, past := ?_, ahead := ?_, counters := ?_, kept := ?_ }
  · have perm := h.perm
    rw [next] at perm
    refine perm.trans ?_
    rw [List.append_assoc]
    exact List.perm_middle.append_left counted
  · rw [List.forall_mem_append, List.forall_mem_singleton]
    exact ⟨h.past,Nat.le_of_eq now⟩
  · intro x hx
    refine h.ahead x ?_
    rw [next]
    exact List.mem_append.mpr ((List.mem_append.mp hx).imp id (List.mem_cons_of_mem e))
  · simp only [h.counters, Counters.recordAll, List.map_append, List.foldl_append, List.map_singleton]
    rfl
  · intro l hl
    rw [List.map_append, ← List.append_assoc]
    exact (h.kept l hl).trans (List.sublist_append_left ..)

theorem Step.tracks (step : Step interval cancel w v)
    (h : w.Tracks before events interval cancel counted looks) :
    ∃ counted looks, v.Tracks before events interval cancel counted looks := by
  have place := h.place
  -- Only a tick and the cancellation look, both at the clock, and `IsAt` tells which instant that is.
  cases step with
  | count next now => exact ⟨_,_,h.counts next now⟩
  | begin early due =>
    rw [IsAt, early] at place
    obtain ⟨none,first,zero⟩ := place
    refine ⟨counted,looks,{ h with place := ⟨0,none,?_,?_,?_,?_⟩ }⟩
    all_goals simp [first, zero]
  | tick waits due =>
    rw [IsAt, waits] at place
    obtain ⟨k,times,next,-,le,within⟩ := place
    refine ⟨_,_,h.looked _ _ ?_⟩
    have there : w.clock = (k + 1) * interval := (Nat.le_antisymm le due).trans next
    rw [IsAt, waits]
    refine ⟨k + 1,?_,?_,?_,?_,within⟩
    · rw [times, there, multiples_succ]
    · rw [next, Nat.succ_mul (k + 1)]
    · exact Nat.le_of_eq there.symm
    · exact Nat.le_trans le (Nat.le_add_right ..)
  | stop waits cancelled =>
    rw [IsAt, waits] at place
    obtain ⟨k,times,next,reached,le,within⟩ := place
    have there : w.clock = cancel := Nat.le_antisymm within cancelled
    refine ⟨_,_,h.looked _ _ ⟨k,?_,there ▸ reached,there ▸ next ▸ le⟩⟩
    rw [times, there]
  | @pass t waits later early untilTick untilCancel =>
    rw [IsAt, waits] at place
    obtain ⟨k,times,next,reached,-,-⟩ := place
    refine ⟨counted,looks,{ h with past := ?_, ahead := early, place := ?_ }⟩
    · exact fun e he => Nat.le_trans (h.past e he) (Nat.le_of_lt later)
    · rw [IsAt, waits]
      exact ⟨k,times,next,Nat.le_trans reached (Nat.le_of_lt later),untilTick,untilCancel⟩

/-! ## Courses -/

theorem tracks_of_course (course : Relation.ReflTransGen (Step interval cancel) (start before events) w) :
    ∃ counted looks, w.Tracks before events interval cancel counted looks := by
  induction course with
  | refl => exact ⟨_,_,tracks_start before events interval cancel⟩
  | tail _ step ih =>
    obtain ⟨counted,looks,tracks⟩ := ih
    exact step.tracks tracks

def stepsLeft (cancel : Nat) (w : Watch) : Nat :=
  -- No watch is ever beyond the cancellation; with the greater of the two this need not be known.
  w.pending.length + w.stage.left + (max w.clock cancel + 1 - w.due) + (cancel - w.clock)

theorem Step.stepsLeft_lt (pos : 0 < interval) (step : Step interval cancel w v) :
    v.stepsLeft cancel < w.stepsLeft cancel := by
  cases step with
  | count next now =>
    simp only [stepsLeft, next, List.length_append, List.length_cons]
    omega
  | begin early due =>
    simp only [stepsLeft, early, Stage.left]
    omega
  | tick waits due =>
    simp only [stepsLeft]
    omega
  | stop waits cancelled =>
    simp only [stepsLeft, waits, Stage.left]
    omega
  | pass waits later early untilTick untilCancel =>
    simp only [stepsLeft]
    omega

/-- No watch goes on for ever. -/
theorem wellFounded_step (pos : 0 < interval) (cancel : Nat) :
    WellFounded fun v w => Step interval cancel w v :=
  Subrelation.wf (Step.stepsLeft_lt pos) (measure (stepsLeft cancel)).wf

theorem exists_rests (pos : 0 < interval) (cancel : Nat) (w : Watch) :
    ∃ v, Relation.ReflTransGen (Step interval cancel) w v ∧ v.Rests interval cancel := by
  obtain ⟨v,course,last⟩ := (wellFounded_step pos cancel).has_min
    {v | Relation.ReflTransGen (Step interval cancel) w v} ⟨w,.refl⟩
  exact ⟨v,course,fun u step => last u (course.tail step) step⟩

theorem Tracks.stage_of_rests (h : w.Tracks before events interval cancel counted looks)
    (rests : w.Rests interval cancel) : w.stage = .done := by
  have place := h.place
  cases stage : w.stage with
  | done => rfl
  | starting =>
    rw [IsAt, stage] at place
    exact absurd (.begin stage (by rw [place.2.1]; exact Nat.zero_le _)) (rests _)
  | waiting =>
    -- Nothing is due, so the clock can go on by one.
    have beforeTick : w.clock < w.due := Nat.not_le.mp fun due => rests _ (.tick stage due)
    have beforeCancel : w.clock < cancel := Nat.not_le.mp fun cancelled => rests _ (.stop stage cancelled)
    have beforeEvents : ∀ e ∈ w.pending, w.clock + 1 ≤ e.time := by
      intro e he
      refine Nat.lt_of_le_of_ne (h.ahead e he) fun now => ?_
      obtain ⟨front,back,next⟩ := List.append_of_mem he
      exact rests _ (.count next now.symm)
    exact absurd (.pass stage (Nat.lt_succ_self _) beforeEvents beforeTick beforeCancel) (rests _)

/-- What a watch has seen that is over. -/
theorem exists_sees_of_rests (pos : 0 < interval)
    (course : Relation.ReflTransGen (Step interval cancel) (start before events) w)
    (rests : w.Rests interval cancel) :
    w.stage = .done ∧ ∃ looks, Sees before events interval cancel looks ∧ w.log = logged looks := by
  obtain ⟨counted,looks,tracks⟩ := tracks_of_course course
  have done := tracks.stage_of_rests rests
  have place := tracks.place
  rw [IsAt, done] at place
  obtain ⟨k,times,reached,next⟩ := place
  refine ⟨done,looks,⟨?_,tracks.recorded,tracks.grows⟩,tracks.log⟩
  rw [times]
  exact areInstants_multiples pos reached next

end Watch

/-! ## The log -/

variable {before : List Event} {events : List TimedEvent} {interval cancel : Nat}
  {looks : List (Nat × List Event)}

/-- Nothing is due at the instant of a tick or of the cancellation, and no tick is due at that of the
cancellation. -/
def Untied (interval cancel : Nat) (events : List TimedEvent) : Prop :=
  (0 < cancel → ¬interval ∣ cancel) ∧ ∀ e ∈ events, e.time ≠ cancel ∧ (0 < e.time → ¬interval ∣ e.time)

/-- Without ties the snapshots are settled. -/
theorem Sees.lines_eq (h : Sees before events interval cancel looks) (pos : 0 < interval)
    (untied : Untied interval cancel events) (clock : Nat → Time.Stamp) (ties : Ties) :
    (logged looks).map (fun s => line clock s.1 s.2) =
      (snapshots ties (Counters.empty.recordAll before) events interval cancel).map
        fun s => line clock s.1 s.2 := by
  have times := h.instants.unique (areInstants_instants pos ties cancel) untied.1
  rw [snapshots_eq_logged, ← times]
  refine lines_logged_eq clock _ fun l hl e => ?_
  refine (h.recorded l hl).count_eq (recorded_seenAt ties before events l.1) (fun x hx same => ?_) e
  obtain ⟨offCancel,offTick⟩ := untied.2 x hx
  obtain ⟨ticks,ends,-,within,-⟩ := h.instants
  have mem : l.1 ∈ ticks ++ [cancel] := ends ▸ List.mem_map_of_mem hl
  rcases List.mem_append.mp mem with tick | last
  · obtain ⟨some,multiple,-⟩ := within _ tick
    rw [← same] at some multiple
    exact offTick some multiple
  · exact offCancel (same.trans (List.mem_singleton.mp last))

structure Logs (before : List Event) (events : List TimedEvent) (interval cancel : Nat) : Prop where
  /-- It comes to an end, whatever is next each time. -/
  ends : Acc (fun v w => Watch.Step interval cancel w v) (.start before events)
  /-- Then it is over, and what it has logged is as it should be. -/
  courses : ∀ w, Relation.ReflTransGen (Watch.Step interval cancel) (.start before events) w →
    w.Rests interval cancel → w.stage = .done ∧ Faithful before events interval cancel w.log
  /-- There is such an end. -/
  finishes : ∃ w, Relation.ReflTransGen (Watch.Step interval cancel) (.start before events) w ∧
    w.Rests interval cancel
  /-- The snapshots are as they should be as well, whatever goes first at one instant. -/
  computed : ∀ ties, Faithful before events interval cancel
    (snapshots ties (Counters.empty.recordAll before) events interval cancel)
  /-- If no two things are due at one instant, both log the same lines. -/
  agrees : Untied interval cancel events → ∀ clock ties w,
    Relation.ReflTransGen (Watch.Step interval cancel) (.start before events) w → w.Rests interval cancel →
      w.log.map (fun s => line clock s.1 s.2) =
        (snapshots ties (Counters.empty.recordAll before) events interval cancel).map
          fun s => line clock s.1 s.2

/-- Every watch with an interval logs on each of its ticks and at the cancellation. -/
theorem watched_and_logged (pos : 0 < interval) (before : List Event) (events : List TimedEvent)
    (cancel : Nat) : Logs before events interval cancel := by
  constructor
  · exact (Watch.wellFounded_step pos cancel).apply _
  · intro w course rests
    obtain ⟨done,looks,sees,log⟩ := Watch.exists_sees_of_rests pos course rests
    exact ⟨done,log ▸ sees.faithful⟩
  · exact Watch.exists_rests pos cancel _
  · intro ties
    rw [snapshots_eq_logged]
    exact (sees_instants pos ties before events cancel).faithful
  · intro untied clock ties w course rests
    obtain ⟨-,looks,sees,log⟩ := Watch.exists_sees_of_rests pos course rests
    rw [log]
    exact sees.lines_eq pos untied clock ties

/-- Runs of one checker that end before a tick, on it, on a tick at which the watch is cancelled, and too late. -/
def fourRuns : List TimedEvent :=
  [5, 10, 20, 25].map fun t => ⟨t, ⟨"network", "dns", .healthy, "Healthy"⟩⟩

theorem watched_and_logged_fourRuns :
    0 < 10 ∧ Logs [] fourRuns 10 20 ∧
      (snapshots ⟨false, true⟩ .empty fourRuns 10 20).map (fun s => (s.1, s.2.total "dns")) =
        [(10, 2), (20, 3)] ∧
      (snapshots ⟨true, false⟩ .empty fourRuns 10 20).map (fun s => (s.1, s.2.total "dns")) =
        [(10, 1), (20, 2), (20, 2)] :=
  ⟨by decide,watched_and_logged (by decide) [] fourRuns 20,by decide,by decide⟩

end HealthProbe.SnapshotLog
