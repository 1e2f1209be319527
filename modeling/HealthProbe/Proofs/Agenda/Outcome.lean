import HealthProbe.Proofs.Agenda.Isolation

/-! # What an agenda comes to

The outcome of an agenda is decided by the schedules that run once: it is the failure of the first of
them, in the order of the list, whose run fails. When the failures happened does not matter, and nothing
that a periodic schedule does can show in it.
-/
namespace HealthProbe

namespace Close

def failure? (place : Nat) : Close → Option Failure
  | finished (.ok _) => none
  | finished (.error e) => some (.check e)
  | expired limit => some (.check (.timeout (Span.ofMillis limit)))
  | crashed words => some (.crashed place words)
  | cancelled => some (.check .cancelled)

def ending : Close → Ending
  | crashed words => .crashed words
  | close => .ran (close.outcome?.getD (.error .cancelled))

end Close

/-! ## The end of a single run -/

namespace Schedule

def Succeeds (s : Schedule) (cancel : Option Nat) (ties : Ties) : Prop :=
  ∃ w v, s.behaviour 0 = .work w ∧ w.outcome = .ok v ∧ Work.fits s.limit w.duration = true ∧
    inTime cancel (ties.run 0) w.duration = true

inductive Fails (s : Schedule) (cancel : Option Nat) (ties : Ties) (place : Nat) : Failure → Prop
  | crashed {after : Nat} {words : String} (does : s.behaviour 0 = .crash after words)
      (fits : Work.fits s.limit after = true) (early : inTime cancel (ties.run 0) after = true) :
      Fails s cancel ties place (.crashed place words)
  | cancelled (late : inTime cancel (ties.run 0) (s.lasts 0) = false) :
      Fails s cancel ties place (.check .cancelled)
  | expired (exceeds : Work.fits s.limit (s.behaviour 0).duration = false)
      (early : inTime cancel (ties.run 0) s.limit = true) :
      Fails s cancel ties place (.check (.timeout (Span.ofMillis s.limit)))
  | reported {w : Work} {e : CheckFailure} (does : s.behaviour 0 = .work w)
      (tells : w.outcome = .error e) (fits : Work.fits s.limit w.duration = true)
      (early : inTime cancel (ties.run 0) w.duration = true) :
      Fails s cancel ties place (.check e)

variable {s : Schedule} {cancel : Option Nat} {ties : Ties} {place : Nat} {f : Failure}

/-- A run from the first instant on ends as its behaviour does under its limit, or is cut. -/
theorem close_firstRun (s : Schedule) (cancel : Option Nat) (ties : Ties) :
    (s.run cancel ties 0 0).close =
      if inTime cancel (ties.run 0) (s.lasts 0) = true then (closeOf s.limit (s.behaviour 0)).2
      else .cancelled := by
  have origin : s.lasts 0 = 0 + s.lasts 0 := (Nat.zero_add _).symm
  split
  · rename_i early
    rw [origin] at early
    exact (run_of_inTime early).2
  · rename_i late
    rw [origin] at late
    cases cancel with
    | none => exact absurd (inTime_none _ _) late
    | some c => exact (run_of_late (Bool.eq_false_of_not_eq_true late)).2

/-- The one run of a schedule either succeeds or fails, and its end tells which. -/
theorem firstRun_ends (s : Schedule) (cancel : Option Nat) (ties : Ties) (place : Nat) :
    (s.Succeeds cancel ties ∧ (s.run cancel ties 0 0).close.failure? place = none) ∨
      ∃ f, s.Fails cancel ties place f ∧ (s.run cancel ties 0 0).close.failure? place = some f := by
  rw [close_firstRun]
  cases early : inTime cancel (ties.run 0) (s.lasts 0) with
  | false => exact .inr ⟨_,.cancelled early,rfl⟩
  | true =>
    rw [lasts] at early
    rw [if_pos rfl]
    cases fits : Work.fits s.limit (s.behaviour 0).duration with
    | false =>
      have hclose := closeOf_of_over fits
      rw [hclose] at early ⊢
      exact .inr ⟨_,.expired fits early,rfl⟩
    | true =>
      have hclose := closeOf_of_fits fits
      rw [hclose] at early ⊢
      cases does : s.behaviour 0 with
      | crash after words =>
        rw [does] at fits early
        exact .inr ⟨_,.crashed does fits early,rfl⟩
      | work w =>
        rw [does] at fits early
        cases tells : w.outcome with
        | ok v =>
          have hsuccess : (Behaviour.work w).close.failure? place = none := by
            simp [Behaviour.close, tells, Close.failure?]
          exact .inl ⟨⟨w,v,does,tells,fits,early⟩,hsuccess⟩
        | error e =>
          have hreport : (Behaviour.work w).close.failure? place = some (.check e) := by
            simp [Behaviour.close, tells, Close.failure?]
          exact .inr ⟨_,.reported does tells fits early,hreport⟩

theorem Succeeds.failure? (h : s.Succeeds cancel ties) :
    (s.run cancel ties 0 0).close.failure? place = none := by
  obtain ⟨w,v,does,tells,fits,early⟩ := h
  simp [close_firstRun, lasts, closeOf, does, fits, early, tells, Close.failure?]

theorem Fails.failure? (h : s.Fails cancel ties place f) :
    (s.run cancel ties 0 0).close.failure? place = some f := by
  rw [close_firstRun]
  cases h with
  | crashed does fits early => simp [lasts, closeOf, does, fits, early, Close.failure?]
  | cancelled late => simp [late, Close.failure?]
  | expired exceeds early => simp [lasts, closeOf_of_over exceeds, early, Close.failure?]
  | reported does tells fits early =>
    simp [lasts, closeOf, does, fits, early, tells, Close.failure?]

theorem failure?_firstRun_eq_some_iff :
    (s.run cancel ties 0 0).close.failure? place = some f ↔ s.Fails cancel ties place f := by
  constructor
  · intro h
    rcases firstRun_ends s cancel ties place with ⟨_,hnone⟩ | ⟨g,hg,hsome⟩
    · rw [hnone] at h
      cases h
    · rw [hsome] at h
      cases h
      exact hg
  · exact Fails.failure?

theorem failure?_firstRun_eq_none_iff :
    (s.run cancel ties 0 0).close.failure? place = none ↔ s.Succeeds cancel ties := by
  constructor
  · intro h
    rcases firstRun_ends s cancel ties place with ⟨hs,_⟩ | ⟨g,_,hsome⟩
    · exact hs
    · rw [hsome] at h
      cases h
  · exact Succeeds.failure?

end Schedule

/-! ## The end of a task -/

/-- What a stage tells of the schedule: of a single one only how its run ends, of any other one no
outcome at all. -/
def Schedule.ToldBy (s : Schedule) (cancel : Option Nat) (ties : Ties) : Stage → Prop
  | .idle _ _ => s.isSingle = false
  | .busy r _ => s.isSingle = true → r = s.run cancel ties 0 0
  | .ended _ ending => if s.isSingle then ending = (s.run cancel ties 0 0).close.ending
      else ∀ o, ending ≠ .ran o

namespace Task
variable {cancel : Option Nat} {t : Task}

theorem toldBy_begin (s : Schedule) (ties : Ties) :
    s.ToldBy cancel ties (begin cancel s ties).stage := by
  cases hs : s.isSingle with
  | true => simp [begin, hs, Schedule.ToldBy]
  | false => simp [begin, hs, Schedule.ToldBy]

theorem afterRun_of_single {s : Schedule} (hs : s.isSingle = true) (r : Run) (due : Nat) :
    afterRun s r due = .ended r.stop r.close.ending := by
  cases hc : r.close <;> simp [afterRun, hc, hs, Close.ending]

theorem toldBy_afterRun {s : Schedule} {ties : Ties} {r : Run} {due : Nat}
    (h : s.isSingle = true → r = s.run cancel ties 0 0) :
    s.ToldBy cancel ties (afterRun s r due) := by
  cases hs : s.isSingle with
  | true =>
    have hr := h hs
    rw [afterRun_of_single hs, hr]
    simp [Schedule.ToldBy, hs]
  | false =>
    unfold afterRun
    split <;> simp [Schedule.ToldBy, hs]

theorem toldBy_advance (h : t.schedule.ToldBy cancel t.ties t.stage) :
    t.schedule.ToldBy cancel t.ties (t.advance cancel).1.stage := by
  cases hs : t.stage with
  | idle since due =>
    rw [hs] at h
    simp only [advance, hs]
    have periodic : t.schedule.isSingle = false := h
    split <;> simp [Schedule.ToldBy, periodic]
  | busy r due =>
    rw [hs] at h
    simp only [advance, hs]
    exact toldBy_afterRun h
  | ended time ending =>
    rw [hs] at h
    simpa only [advance, hs] using h

theorem failure?_of_ending {place time : Nat} {close : Close} (single : t.schedule.isSingle = true)
    (hs : t.stage = .ended time close.ending) : Agenda.failure? place t = close.failure? place := by
  cases close with
  | finished o => cases o <;> simp [Agenda.failure?, hs, Close.ending, Close.outcome?, Close.failure?]
  | expired limit =>
    simp [Agenda.failure?, hs, Close.ending, Close.outcome?, Close.failure?, Work.timedOut]
  | crashed words => simp [Agenda.failure?, hs, single, Close.ending, Close.failure?]
  | cancelled => simp [Agenda.failure?, hs, Close.ending, Close.outcome?, Close.failure?]

/-- The failure that is reported for a task that is over is the one of the run of its schedule. -/
theorem failure?_of_isOver {place : Nat} (h : t.schedule.ToldBy cancel t.ties t.stage)
    (ended : t.IsOver) :
    Agenda.failure? place t =
      if t.schedule.isSingle then (t.schedule.run cancel t.ties 0 0).close.failure? place
      else none := by
  obtain ⟨time,ending,hs⟩ := ended
  rw [hs] at h
  cases single : t.schedule.isSingle with
  | true =>
    simp only [Schedule.ToldBy, single, if_true] at h
    rw [if_pos rfl]
    exact failure?_of_ending single (h ▸ hs)
  | false =>
    simp only [Schedule.ToldBy, single] at h
    cases ending with
    | stopped => simp [Agenda.failure?, hs]
    | ran o => exact absurd rfl (h o)
    | crashed words => simp [Agenda.failure?, hs, single]

theorem Follows.stepsLeft_advance_of_single {c : Nat} (h : t.Follows cancel)
    (single : t.schedule.isSingle = true) (going : ¬ t.IsOver) :
    (t.advance cancel).1.stepsLeft c < t.stepsLeft c := by
  cases hs : t.stage with
  | idle since due =>
    have hstage := h.stage
    rw [hs] at hstage
    exact absurd single (Bool.eq_false_iff.mp hstage.1)
  | busy r due =>
    have hlt := stepsLeft_afterRun (c := c) t.schedule t.ties t.runs r due
    simpa only [Task.advance, stepsLeft, hs] using hlt
  | ended time ending => exact absurd ⟨time,ending,hs⟩ going

end Task

namespace Agenda

/-! ## The first failure of a list -/

theorem findSome?_eq_some_iff_getElem? {α β : Type} {l : List α} {g : α → Option β} {b : β} :
    l.findSome? g = some b ↔ ∃ (i : Nat) (a : α),
      l[i]? = some a ∧ g a = some b ∧ ∀ j < i, ∀ c, l[j]? = some c → g c = none := by
  rw [List.findSome?_eq_some_iff]
  constructor
  · rintro ⟨before,a,rest,rfl,ha,hbefore⟩
    refine ⟨before.length,a,by simp,ha,?_⟩
    intro j hj c hc
    rw [List.getElem?_append_left hj] at hc
    exact hbefore c (List.mem_of_getElem? hc)
  · rintro ⟨i,a,hi,ha,hbefore⟩
    obtain ⟨hlt,rfl⟩ := List.getElem?_eq_some_iff.mp hi
    refine ⟨l.take i,l[i],l.drop (i + 1),?_,ha,?_⟩
    · rw [List.getElem_cons_drop, List.take_append_drop]
    · intro x hx
      obtain ⟨j,hj⟩ := List.mem_iff_getElem?.mp hx
      rw [List.getElem?_take] at hj
      split at hj
      · exact hbefore j (by assumption) x hj
      · cases hj

theorem numbered_getElem?_eq_some_iff {tasks : List Task} {i : Nat} {p : Nat × Task} :
    (numbered tasks)[i]? = some p ↔ p.1 = i ∧ tasks[i]? = some p.2 := by
  rw [numbered, List.getElem?_zip_eq_some]
  constructor
  · rintro ⟨hi,ht⟩
    obtain ⟨_,hget⟩ := List.getElem?_eq_some_iff.mp hi
    exact ⟨by simpa using hget.symm,ht⟩
  · rintro ⟨rfl,ht⟩
    have hlt := (List.getElem?_eq_some_iff.mp ht).1
    exact ⟨by simp [List.getElem?_range hlt],ht⟩

def failureAt? (tasks : List Task) (i : Nat) : Option Failure := tasks[i]?.bind (failure? i)

theorem outcome_eq_error_iff {tasks : List Task} {f : Failure} :
    outcome tasks = .error f ↔
      ∃ i, failureAt? tasks i = some f ∧ ∀ j < i, failureAt? tasks j = none := by
  have found : outcome tasks = .error f ↔
      ((numbered tasks).findSome? fun p => failure? p.1 p.2) = some f := by
    unfold outcome
    cases (numbered tasks).findSome? fun p => failure? p.1 p.2 <;> simp
  rw [found, findSome?_eq_some_iff_getElem?]
  constructor
  · rintro ⟨i,p,hp,hf,hbefore⟩
    obtain ⟨rfl,ht⟩ := numbered_getElem?_eq_some_iff.mp hp
    refine ⟨p.1,by simpa [failureAt?, ht] using hf,?_⟩
    intro j hj
    refine Option.bind_eq_none_iff.mpr fun u hu => ?_
    exact hbefore j hj (j, u) (numbered_getElem?_eq_some_iff.mpr ⟨rfl,hu⟩)
  · rintro ⟨i,hi,hbefore⟩
    obtain ⟨t,ht,hf⟩ := Option.bind_eq_some_iff.mp hi
    refine ⟨i,(i, t),numbered_getElem?_eq_some_iff.mpr ⟨rfl,ht⟩,hf,?_⟩
    intro j hj p hp
    obtain ⟨rfl,hu⟩ := numbered_getElem?_eq_some_iff.mp hp
    exact Option.bind_eq_none_iff.mp (hbefore p.1 hj) p.2 hu

theorem outcome_eq_ok_iff {tasks : List Task} :
    outcome tasks = .ok () ↔ ∀ i, failureAt? tasks i = none := by
  have found : outcome tasks = .ok () ↔
      ((numbered tasks).findSome? fun p => failure? p.1 p.2) = none := by
    unfold outcome
    cases (numbered tasks).findSome? fun p => failure? p.1 p.2 <;> simp
  rw [found, List.findSome?_eq_none_iff]
  constructor
  · intro h i
    refine Option.bind_eq_none_iff.mpr fun t ht => ?_
    exact h (i, t) (List.mem_of_getElem? (numbered_getElem?_eq_some_iff.mpr ⟨rfl,ht⟩))
  · intro h p hp
    obtain ⟨i,hi⟩ := List.mem_iff_getElem?.mp hp
    obtain ⟨rfl,ht⟩ := numbered_getElem?_eq_some_iff.mp hi
    exact Option.bind_eq_none_iff.mp (h p.1) p.2 ht

/-! ## The failures of an execution -/

variable {cancel : Option Nat} {tasks tasks' : List (Schedule × Ties)} {g : Agenda}

/-- What holds of every task at its begin and is kept by its steps holds on the whole way. -/
theorem forall_tasks_after {P : Task → Prop} (start : ∀ s ties, P (Task.begin cancel s ties))
    (step : ∀ t, P t → P (t.advance cancel).1) (order : List Nat) :
    ∀ t ∈ (after cancel tasks order).tasks, P t := by
  have along : ∀ g : Agenda, g.cancel = cancel → (∀ t ∈ g.tasks, P t) →
      ∀ t ∈ (g.follow order).tasks, P t := by
    induction order with
    | nil => exact fun _ _ h => h
    | cons i order ih =>
      intro g hc h
      refine ih (g.advance i) ((advance_cancel i).trans hc) ?_
      cases hi : g.tasks[i]? with
      | none => rwa [advance_of_none hi]
      | some u =>
        rw [advance_of_some hi, hc]
        intro t ht
        rcases List.mem_or_eq_of_mem_set ht with ht | rfl
        · exact h t ht
        · exact step u (h u (List.mem_of_getElem? hi))
  refine along (begin cancel tasks) rfl ?_
  intro t ht
  obtain ⟨p,_,rfl⟩ := List.mem_map.mp ht
  exact start p.1 p.2

def plannedFailure? (cancel : Option Nat) (tasks : List (Schedule × Ties)) (i : Nat) : Option Failure :=
  tasks[i]?.bind fun p =>
    if p.1.isSingle then (p.1.run cancel p.2 0 0).close.failure? i else none

theorem Execution.failureAt?_eq (x : Execution cancel tasks) (i : Nat) :
    failureAt? x.final.tasks i = plannedFailure? cancel tasks i := by
  have told : ∀ t ∈ x.final.tasks, t.schedule.ToldBy cancel t.ties t.stage :=
    forall_tasks_after (P := fun t => t.schedule.ToldBy cancel t.ties t.stage) Task.toldBy_begin
      (fun t h => by simpa using Task.toldBy_advance h) x.order
  have consistent : x.final.Consistent tasks := after_consistent x.order
  rw [failureAt?, plannedFailure?, ← consistent.tasks_getElem? i]
  cases ht : x.final.tasks[i]? with
  | none => rfl
  | some t =>
    have hmem := List.mem_of_getElem? ht
    exact Task.failure?_of_isOver (told t hmem) (x.ended t hmem)

theorem plannedFailure?_eq_some_iff {i : Nat} {f : Failure} :
    plannedFailure? cancel tasks i = some f ↔
      ∃ s ties, tasks[i]? = some (s, ties) ∧ s.isSingle = true ∧ s.Fails cancel ties i f := by
  rw [plannedFailure?, Option.bind_eq_some_iff]
  constructor
  · rintro ⟨⟨s,ties⟩,hi,hf⟩
    cases single : s.isSingle with
    | true =>
      simp only [single, if_true] at hf
      exact ⟨s,ties,hi,single,Schedule.failure?_firstRun_eq_some_iff.mp hf⟩
    | false => simp [single] at hf
  · rintro ⟨s,ties,hi,single,hf⟩
    refine ⟨(s, ties),hi,?_⟩
    rw [if_pos single]
    exact hf.failure?

theorem plannedFailure?_eq_none_iff {i : Nat} :
    plannedFailure? cancel tasks i = none ↔
      ∀ s ties, tasks[i]? = some (s, ties) → s.isSingle = true → s.Succeeds cancel ties := by
  rw [plannedFailure?, Option.bind_eq_none_iff]
  constructor
  · intro h s ties hi single
    have hnone := h (s, ties) hi
    rw [if_pos single] at hnone
    exact Schedule.failure?_firstRun_eq_none_iff.mp hnone
  · intro h p hi
    split
    · rename_i single
      exact (h p.1 p.2 hi single).failure?
    · rfl

theorem Execution.outcome_eq_ok_iff (x : Execution cancel tasks) :
    x.report.outcome = .ok () ↔ ∀ (i : Nat) (s : Schedule) (ties : Ties),
      tasks[i]? = some (s, ties) → s.isSingle = true → s.Succeeds cancel ties := by
  rw [Execution.report, Agenda.report, Agenda.outcome_eq_ok_iff]
  simp only [x.failureAt?_eq, plannedFailure?_eq_none_iff]

theorem Execution.outcome_eq_error_iff (x : Execution cancel tasks) {f : Failure} :
    x.report.outcome = .error f ↔
      ∃ (i : Nat) (s : Schedule) (ties : Ties), tasks[i]? = some (s, ties) ∧ s.isSingle = true ∧
        s.Fails cancel ties i f ∧ ∀ j < i, ∀ (s' : Schedule) (ties' : Ties),
          tasks[j]? = some (s', ties') → s'.isSingle = true → s'.Succeeds cancel ties' := by
  rw [Execution.report, Agenda.report, Agenda.outcome_eq_error_iff]
  simp only [x.failureAt?_eq, plannedFailure?_eq_none_iff, plannedFailure?_eq_some_iff]
  constructor
  · rintro ⟨i,⟨s,ties,hi,single,hf⟩,hbefore⟩
    exact ⟨i,s,ties,hi,single,hf,hbefore⟩
  · rintro ⟨i,s,ties,hi,single,hf,hbefore⟩
    exact ⟨i,⟨s,ties,hi,single,hf⟩,hbefore⟩

def SameSingles (tasks tasks' : List (Schedule × Ties)) : Prop :=
  ∀ i : Nat, tasks[i]? = tasks'[i]? ∨ ∃ p q, tasks[i]? = some p ∧ tasks'[i]? = some q ∧
    p.1.isSingle = false ∧ q.1.isSingle = false

theorem SameSingles.plannedFailure?_eq (h : SameSingles tasks tasks') (i : Nat) :
    plannedFailure? cancel tasks i = plannedFailure? cancel tasks' i := by
  rcases h i with same | ⟨p,q,hp,hq,hperiodic,hperiodic'⟩
  · rw [plannedFailure?, same, plannedFailure?]
  · simp [plannedFailure?, hp, hq, hperiodic, hperiodic']

theorem Execution.outcome_congr (x : Execution cancel tasks) (y : Execution cancel tasks')
    (h : SameSingles tasks tasks') : x.report.outcome = y.report.outcome := by
  have same : ∀ i, failureAt? x.final.tasks i = failureAt? y.final.tasks i := fun i => by
    rw [x.failureAt?_eq, y.failureAt?_eq, h.plannedFailure?_eq]
  cases hy : y.report.outcome with
  | ok =>
    rw [Execution.report, Agenda.report, Agenda.outcome_eq_ok_iff] at hy ⊢
    exact fun i => (same i).trans (hy i)
  | error f =>
    rw [Execution.report, Agenda.report, Agenda.outcome_eq_error_iff] at hy ⊢
    simpa only [same] using hy

/-! ## Single schedules alone -/

/-- Schedules that all run once come to their end, cancelled or not. -/
theorem run_isSome_of_singles (rounds : Nat) (cancel : Option Nat)
    (singles : ∀ p ∈ tasks, p.1.isSingle = true) : (run rounds cancel tasks).isSome := by
  refine run_isSome_of_rank rounds (Task.stepsLeft 0) ?_ ?_
  · intro p hp
    simp [Task.begin, Task.stepsLeft, steps, singles p hp]
  · intro t follows planned going
    exact follows.stepsLeft_advance_of_single (singles _ planned) going

/-- An agenda that has come to its end has succeeded exactly if every run of a single schedule has, and
otherwise its failure is the one of the first single schedule in the list whose run failed. What periodic
schedules do makes no difference. Under a cancellation, and without one if all schedules are single, an
agenda does come to its end. -/
theorem outcome_exact (cancel : Option Nat) (tasks : List (Schedule × Ties)) :
    (∀ x : Execution cancel tasks,
      x.report.outcome = .ok () ↔ ∀ (i : Nat) (s : Schedule) (ties : Ties),
        tasks[i]? = some (s, ties) → s.isSingle = true → s.Succeeds cancel ties) ∧
    (∀ (x : Execution cancel tasks) (f : Failure),
      x.report.outcome = .error f ↔
        ∃ (i : Nat) (s : Schedule) (ties : Ties), tasks[i]? = some (s, ties) ∧ s.isSingle = true ∧
          s.Fails cancel ties i f ∧ ∀ j < i, ∀ (s' : Schedule) (ties' : Ties),
            tasks[j]? = some (s', ties') → s'.isSingle = true → s'.Succeeds cancel ties') ∧
    (∀ (tasks' : List (Schedule × Ties)) (x : Execution cancel tasks) (y : Execution cancel tasks'),
      SameSingles tasks tasks' → x.report.outcome = y.report.outcome) ∧
    (∀ (rounds : Nat) (r : Report), run rounds cancel tasks = some r →
      ∃ x : Execution cancel tasks, r = x.report) ∧
    (∀ rounds : Nat, (cancel.isSome ∨ ∀ p ∈ tasks, p.1.isSingle = true) →
      (run rounds cancel tasks).isSome) := by
  refine ⟨Execution.outcome_eq_ok_iff,fun x f => x.outcome_eq_error_iff,
    fun tasks' x y h => x.outcome_congr y h,fun rounds r => run_eq_some,?_⟩
  rintro rounds (cancelled | singles)
  · obtain ⟨c,rfl⟩ := Option.isSome_iff_exists.mp cancelled
    exact run_isSome rounds c tasks
  · exact run_isSome_of_singles rounds cancel singles

/-- A periodic schedule that crashes, a single one that succeeds, one whose limit cuts it, and one that
crashes long before that. -/
def lateAndEarlyFailures : List (Schedule × Ties) :=
  [(⟨"faulty", "network", 7, 0, fun _ => .crash 1 "out of range"⟩, .work),
   (⟨"dns", "network", 0, 5, fun _ => .work ⟨3, .ok .healthy, []⟩⟩, .work),
   (⟨"slow", "network", 0, 20, fun _ => .work ⟨100, .ok .healthy, []⟩⟩, .work),
   (⟨"broken", "network", 0, 0, fun _ => .crash 2 "no answer"⟩, .work)]

theorem outcome_exact_lateAndEarlyFailures :
    ∃ r, run 0 (some 25) lateAndEarlyFailures = some r ∧
      r.outcome = .error (.check (.timeout (Span.ofMillis 20))) := by
  obtain ⟨_,failed,_,executed,ends⟩ := outcome_exact (some 25) lateAndEarlyFailures
  obtain ⟨r,hr⟩ := Option.isSome_iff_exists.mp (ends 0 (.inl rfl))
  obtain ⟨x,rfl⟩ := executed 0 r hr
  refine ⟨x.report,hr,(failed x _).mpr ⟨2,_,_,rfl,rfl,.expired rfl rfl,?_⟩⟩
  intro j hj s ties hs single
  match j, hs with
  | 0, hs =>
    cases hs
    cases single
  | 1, hs =>
    cases hs
    exact ⟨_,_,rfl,rfl,rfl,rfl⟩

end Agenda
end HealthProbe
