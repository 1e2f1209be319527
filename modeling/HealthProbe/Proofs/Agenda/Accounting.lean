import HealthProbe.Proofs.Agenda.Execution
import HealthProbe.Proofs.Agenda.Starts
import HealthProbe.Proofs.Counters.Tally

/-! # What an agenda counts

The counters at the end are determined by what the checkers do in the runs that start: each run that comes
to an outcome before the cancellation is one event, a timeout by its limit included, and there are no others.
Neither crashed nor cut runs count, and the order in which the tasks went on does not matter.
-/
namespace HealthProbe

namespace Schedule

def eventOf? (s : Schedule) (r : Run) : Option Event :=
  r.close.counted?.map fun o => Event.of s.kind s.name (Classification.of o)

/-- The run with a number takes so long and comes to an outcome that is an event, unless it says itself that
the run was cancelled. -/
def Yields (s : Schedule) (n d : Nat) (e : Event) : Prop :=
  ∃ o, (s.behaviour n).within s.limit = (d, .ok o) ∧ o ≠ .error .cancelled ∧
    e = Event.of s.kind s.name (Classification.of o)

def Counts (s : Schedule) (cancel : Option Nat) (ties : Ties) (e : Event) (n : Nat) : Prop :=
  ∃ due start d, s.Starts cancel ties n due start ∧ s.Yields n d e ∧
    inTime cancel (ties.run n) (start + d) = true

def CountsBefore (s : Schedule) (c : Nat) (e : Event) (n : Nat) : Prop :=
  ∃ due start d, s.Starts none .work n due start ∧ s.Yields n d e ∧ start + d < c

def CountsAt (s : Schedule) (c : Nat) (ties : Ties) (e : Event) (n : Nat) : Prop :=
  ∃ due start d, s.Starts (some c) ties n due start ∧ s.Yields n d e ∧ start + d = c

variable {s : Schedule} {cancel : Option Nat} {ties : Ties} {e : Event} {n : Nat}

theorem yields_iff {d : Nat} : s.Yields n d e ↔ d = s.lasts n ∧ ∃ o, s.outcome? n = some o ∧
    o ≠ .error .cancelled ∧ e = Event.of s.kind s.name (Classification.of o) := by
  rw [lasts_eq, outcome?_eq, Yields]
  rcases (s.behaviour n).within s.limit with ⟨took,words | o⟩
  · simp [Except.toOption]
  · simp [Except.toOption, eq_comm]

theorem starts_some_iff_of_lt {c due start : Nat} (lt : start < c) :
    s.Starts (some c) ties n due start ↔ s.Starts none .work n due start := by
  rw [starts_iff, starts_iff]
  exact slot?_iff_of_lt lt

/-- A cancellation leaves what is done before it alone; only the ends at its own instant hang on the
ties. -/
theorem counts_some_iff {c : Nat} :
    s.Counts (some c) ties e n ↔
      s.CountsBefore c e n ∨ s.CountsAt c ties e n ∧ ties.run n = true := by
  simp only [Counts, CountsBefore, CountsAt, inTime_some_iff]
  constructor
  · rintro ⟨due,start,d,starts,yields,early | ⟨last,tie⟩⟩
    · exact .inl ⟨due,start,d,(starts_some_iff_of_lt (by omega)).mp starts,yields,early⟩
    · exact .inr ⟨⟨due,start,d,starts,yields,last⟩,tie⟩
  · rintro (⟨due,start,d,starts,yields,early⟩ | ⟨⟨due,start,d,starts,yields,last⟩,tie⟩)
    · exact ⟨due,start,d,(starts_some_iff_of_lt (by omega)).mpr starts,yields,.inl early⟩
    · exact ⟨due,start,d,starts,yields,.inr ⟨last,tie⟩⟩

theorem eventOf?_run {start : Nat} :
    s.eventOf? (s.run cancel ties n start) = some e ↔
      ∃ d, s.Yields n d e ∧ inTime cancel (ties.run n) (start + d) = true := by
  simp only [eventOf?, Option.map_eq_some_iff, counted?_run, yields_iff]
  constructor
  · rintro ⟨o,⟨early,came,told⟩,rfl⟩
    exact ⟨_,⟨rfl,o,came,told,rfl⟩,early⟩
  · rintro ⟨d,⟨rfl,o,came,told,rfl⟩,early⟩
    exact ⟨o,⟨early,came,told⟩,rfl⟩

/-- On the whole course, the runs that count are the ones with a number that counts. -/
theorem Course.places_eventOf? {runs : List Run} (h : s.Course cancel ties runs) :
    Counters.places (fun r => s.eventOf? r == some e) runs = {n | s.Counts cancel ties e n} := by
  ext n
  simp only [Counters.places, h n, run?, Option.map_eq_some_iff, beq_iff_eq, Set.mem_ofPred_eq, Counts,
    starts_iff]
  constructor
  · rintro ⟨_,⟨p,slot,rfl⟩,event⟩
    obtain ⟨d,yields,early⟩ := eventOf?_run.mp event
    exact ⟨p.due,p.start,d,slot,yields,early⟩
  · rintro ⟨_,_,d,slot,yields,early⟩
    exact ⟨_,⟨_,slot,rfl⟩,eventOf?_run.mpr ⟨d,yields,early⟩⟩

end Schedule

theorem Task.map_event_counted (t : Task) :
    t.counted.map TimedEvent.event = t.runs.reverse.filterMap t.schedule.eventOf? := by
  rw [List.filterMap_eq_flatMap_toList, counted, List.map_flatMap]
  refine congrArg (t.runs.reverse.flatMap ·) (funext fun r => ?_)
  simp only [runTrace, Schedule.eventOf?]
  cases r.close.counted? <;> rfl

theorem Task.Follows.count_counted {cancel : Option Nat} {t : Task} (h : t.Follows cancel)
    (ended : t.IsOver) (e : Event) :
    {n | t.schedule.Counts cancel t.ties e n}.Finite ∧
      (t.counted.map TimedEvent.event).count e = {n | t.schedule.Counts cancel t.ties e n}.ncard := by
  rw [← (h.course ended).places_eventOf?, Task.map_event_counted, List.count_filterMap]
  exact Counters.countP_eq_ncard _ _

namespace Agenda

/-- Counters with exactly the events that schedules come to: each has one row, with the number of runs,
of all schedules together, that come to it. -/
structure Accounts (cancel : Option Nat) (tasks : List (Schedule × Ties)) (k : Counters) : Prop where
  finite : ∀ p ∈ tasks, ∀ e, {n | p.1.Counts cancel p.2 e n}.Finite
  count : ∀ e, k.count e = (tasks.map fun p => {n | p.1.Counts cancel p.2 e n}.ncard).sum
  row : ∀ e m, (e, m) ∈ k.counts ↔ 0 < m ∧ m = k.count e
  once : (k.counts.map Prod.fst).Nodup

variable {cancel : Option Nat} {tasks : List (Schedule × Ties)}

theorem Consistent.count_events {g : Agenda} (h : g.Consistent tasks) (ended : ∀ t ∈ g.tasks, t.IsOver)
    (e : Event) :
    (g.events.map TimedEvent.event).count e =
      (tasks.map fun p => {n | p.1.Counts g.cancel p.2 e n}.ncard).sum := by
  rw [(h.accounted.map TimedEvent.event).count_eq, List.map_flatMap, List.count_flatMap, ← h.plans,
    List.map_map]
  refine congrArg List.sum (List.map_congr_left fun t ht => ?_)
  exact ((h.follows t ht).count_counted (ended t ht) e).2

theorem Consistent.accounts {g : Agenda} (h : g.Consistent tasks) (ended : ∀ t ∈ g.tasks, t.IsOver) :
    Accounts g.cancel tasks g.counters := by
  have sound := Counters.sound_empty.recordAll (g.events.map TimedEvent.event)
  refine ⟨?_,?_,fun e m => sound.mem_counts_iff,sound.once⟩
  · intro p hp e
    rw [← h.plans] at hp
    obtain ⟨t,ht,rfl⟩ := List.mem_map.mp hp
    exact ((h.follows t ht).count_counted (ended t ht) e).1
  · intro e
    rw [counters, Counters.count_recordAll, h.count_events ended e, Counters.count_empty, Nat.zero_add]

theorem Execution.accounts (x : Execution cancel tasks) : Accounts cancel tasks x.final.counters := by
  have h := (after_consistent x.order).accounts x.ended
  rwa [after_cancel] at h

/-- Whatever the order in which the tasks went on, an agenda that has come to its end has counted exactly
the events of its schedules; under a cancellation it does come to its end. An event is counted for each
run that has come to its outcome, or is cut by its limit, before the cancellation, and only for a run that
ends at its very instant does it hang on the ties. -/
theorem counters_exact (cancel : Option Nat) (tasks : List (Schedule × Ties)) :
    (∀ x : Execution cancel tasks, Accounts cancel tasks x.final.counters) ∧
    (∀ rounds r, run rounds cancel tasks = some r → Accounts cancel tasks r.counters) ∧
    (∀ rounds c, (run rounds (some c) tasks).isSome) ∧
    (∀ (s : Schedule) (c : Nat) (ties : Ties) (e : Event) (n : Nat),
      s.Counts (some c) ties e n ↔
        s.CountsBefore c e n ∨ s.CountsAt c ties e n ∧ ties.run n = true) := by
  refine ⟨Execution.accounts,?_,fun rounds c => run_isSome rounds c tasks,
    fun _ _ _ _ _ => Schedule.counts_some_iff⟩
  intro rounds r h
  obtain ⟨x,rfl⟩ := run_eq_some h
  exact x.accounts

/-- Two schedules that share their events and end a run at the same instant, one that is cut by a
cancellation, and one that crashes. -/
def fourSchedules : List (Schedule × Ties) :=
  [(⟨"dns", "network", 10, 0, fun _ => .work ⟨3, .ok .healthy, []⟩⟩, .work),
   (⟨"dns", "network", 0, 5, fun _ => .work ⟨3, .ok .healthy, []⟩⟩, .work),
   (⟨"slow", "network", 0, 0, fun _ => .work ⟨100, .ok .healthy, []⟩⟩, .work),
   (⟨"faulty", "network", 7, 0, fun _ => .crash 1 "out of range"⟩, .work)]

def lateSchedule : Schedule := ⟨"late", "network", 0, 20, fun _ => .work ⟨100, .ok .healthy, []⟩⟩

theorem counters_exact_lateSchedule :
    ∃ r, run 0 (some 25) ((lateSchedule, .work) :: fourSchedules) = some r ∧
      Accounts (some 25) ((lateSchedule, .work) :: fourSchedules) r.counters ∧
      r.counters.counts = [(⟨"network", "dns", .healthy, "Healthy"⟩, 4),
        (⟨"network", "late", .unknown, "RunError"⟩, 1)] := by
  have h : (run 0 (some 25) ((lateSchedule, .work) :: fourSchedules)).map (fun r => r.counters.counts) =
      some [(⟨"network", "dns", .healthy, "Healthy"⟩, 4),
        (⟨"network", "late", .unknown, "RunError"⟩, 1)] := by rfl
  obtain ⟨r,hr,hcounts⟩ := Option.map_eq_some_iff.mp h
  exact ⟨r,hr,(counters_exact (some 25) _).2.1 0 r hr,hcounts⟩

end Agenda
end HealthProbe
