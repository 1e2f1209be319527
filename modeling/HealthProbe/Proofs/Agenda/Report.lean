import HealthProbe.Proofs.Agenda.Accounting
import HealthProbe.Proofs.Agenda.Ending

/-! # What a report has in it

A task tells and counts nothing that lies ahead of the stage it has reached, so at the end of an agenda
everything has been told and counted by the end that the report names. A schedule that runs once comes to
one event, unless its run crashes or is cancelled.
-/
namespace HealthProbe

/-! ## One step -/

namespace Schedule
variable {s : Schedule} {cancel : Option Nat} {ties : Ties} {n start : Nat}

theorem le_stop_of_mem_notes {l : LogLine} (h : l ∈ (s.run cancel ties n start).notes) :
    l.time ≤ (s.run cancel ties n start).stop := by
  simp only [run] at h ⊢
  split
  · rename_i whole
    rw [if_pos whole] at h
    have told := (List.mem_filter.mp h).2
    rw [Bool.and_eq_true, decide_eq_true_eq] at told
    exact told.1
  · rename_i late
    rw [if_neg late] at h
    have told := (List.mem_filter.mp h).2
    rw [Bool.and_eq_true, decide_eq_true_eq] at told
    cases cancel with
    | none => exact absurd (inTime_none ..) late
    | some c =>
      have early := inTime_some_iff.mp told.2
      show l.time ≤ c
      omega

end Schedule

namespace Task
variable {cancel : Option Nat} {t : Task}

theorem time_verdictLine (s : Schedule) (time : Nat) (o : Outcome) : (verdictLine s time o).time = time := by
  unfold verdictLine
  split
  · rfl
  · rfl
  · split <;> rfl

theorem time_of_mem_firstLines {s : Schedule} {l : LogLine} (h : l ∈ firstLines s) : l.time = 0 := by
  unfold firstLines at h
  split at h
  · rcases List.mem_cons.mp h with rfl | h
    · rfl
    · rw [List.mem_singleton.mp h, startLine]
  · rw [List.mem_singleton.mp h]

theorem since_afterRun (s : Schedule) (r : Run) (due : Nat) : (afterRun s r due).since = r.stop := by
  unfold afterRun
  split
  · rfl
  · split <;> rfl

structure Leaves (now : Nat) (trace : Trace) : Prop where
  events : ∀ e ∈ trace.events, e.time ≤ now
  lines : ∀ l ∈ trace.lines, l.time ≤ now

theorem leaves_runTrace {s : Schedule} {r : Run} (notes : ∀ l ∈ r.notes, l.time ≤ r.stop) :
    Leaves r.stop (runTrace s r) := by
  constructor
  · intro e he
    obtain ⟨o,_,rfl⟩ := Option.map_eq_some_iff.mp (Option.mem_toList.mp he)
    exact Nat.le_refl _
  · intro l hl
    rcases List.mem_append.mp hl with hl | hl
    · exact notes l hl
    · obtain ⟨o,_,rfl⟩ := Option.map_eq_some_iff.mp (Option.mem_toList.mp hl)
      exact Nat.le_of_eq (time_verdictLine s r.stop o)

theorem Follows.leaves_advance (h : t.Follows cancel) :
    t.stage.since ≤ (t.advance cancel).1.stage.since ∧
      Leaves (t.advance cancel).1.stage.since (t.advance cancel).2 := by
  cases hs : t.stage with
  | idle since due =>
    simp only [Task.advance, hs]
    split
    · simp only [Stage.since, Schedule.run_start]
      exact ⟨Nat.le_max_left since due,List.forall_mem_nil _,List.forall_mem_singleton.mpr (Nat.le_refl _)⟩
    · exact ⟨Nat.le_max_left since _,List.forall_mem_nil _,List.forall_mem_singleton.mpr (Nat.le_refl _)⟩
  | busy r due =>
    have hstage := h.stage
    rw [hs] at hstage
    obtain ⟨p,hp,hr,_⟩ := hstage
    simp only [Task.advance, hs, since_afterRun]
    rw [Stage.since, hr]
    refine ⟨?_,leaves_runTrace fun l => Schedule.le_stop_of_mem_notes⟩
    rw [Schedule.run_start]
    exact Schedule.start_le_stop_of_slot? hp
  | ended time ending =>
    simp only [Task.advance, hs]
    exact ⟨Nat.le_refl _,List.forall_mem_nil _,List.forall_mem_nil _⟩

end Task

namespace Agenda
variable {cancel : Option Nat} {tasks : List (Schedule × Ties)} {g : Agenda}

/-! ## On the way to the end -/

/-- Everything that an agenda has counted and told belongs to a stage that one of its tasks has reached, but
for what is told in the first instant. -/
structure Past (g : Agenda) : Prop where
  events : ∀ e ∈ g.events, ∃ t ∈ g.tasks, e.time ≤ t.stage.since
  lines : ∀ l ∈ g.lines, l.time = 0 ∨ ∃ t ∈ g.tasks, l.time ≤ t.stage.since

theorem past_begin : (begin cancel tasks).Past := by
  refine ⟨nofun,fun l hl => .inl ?_⟩
  rcases List.mem_cons.mp hl with rfl | hl
  · rfl
  · obtain ⟨p,_,hl⟩ := List.mem_flatMap.mp hl
    exact Task.time_of_mem_firstLines hl

/-- A time that one of the tasks has reached before a step has been reached after it. -/
theorem exists_le_since_set {ts : List Task} {i time : Nat} {t u : Task} (hi : ts[i]? = some t)
    (forward : t.stage.since ≤ u.stage.since) (h : ∃ t ∈ ts, time ≤ t.stage.since) :
    ∃ t ∈ ts.set i u, time ≤ t.stage.since := by
  obtain ⟨v,hv,le⟩ := h
  obtain ⟨j,hj⟩ := List.mem_iff_getElem?.mp hv
  by_cases same : i = j
  · subst same
    obtain rfl : t = v := Option.some.inj (hi.symm.trans hj)
    exact ⟨u,List.mem_set (List.getElem?_eq_some_iff.mp hi).1 u,le.trans forward⟩
  · refine ⟨v,List.mem_of_getElem? (i := j) ?_,le⟩
    rw [List.getElem?_set_ne same, hj]

theorem Past.advance (h : g.Past) (consistent : g.Consistent tasks) (i : Nat) : (g.advance i).Past := by
  cases hi : g.tasks[i]? with
  | none => rwa [advance_of_none hi]
  | some t =>
    obtain ⟨forward,leaves⟩ := (consistent.follows t (List.mem_of_getElem? hi)).leaves_advance
    have here : (t.advance g.cancel).1 ∈ g.tasks.set i (t.advance g.cancel).1 :=
      List.mem_set (List.getElem?_eq_some_iff.mp hi).1 _
    rw [advance_of_some hi]
    constructor
    · intro e he
      rcases List.mem_append.mp he with he | he
      · exact exists_le_since_set hi forward (h.events e he)
      · exact ⟨_,here,leaves.events e he⟩
    · intro l hl
      rcases List.mem_append.mp hl with hl | hl
      · exact (h.lines l hl).imp_right (exists_le_since_set hi forward)
      · exact .inr ⟨_,here,leaves.lines l hl⟩

theorem Past.follow (h : g.Past) (consistent : g.Consistent tasks) (order : List Nat) :
    (g.follow order).Past := by
  induction order generalizing g with
  | nil => exact h
  | cons i order ih => exact ih (h.advance consistent i) (consistent.advance i)

/-! ## At the end -/

namespace Execution
variable (x : Execution cancel tasks)

theorem past : x.final.Past := past_begin.follow consistent_begin x.order

end Execution
end Agenda
end HealthProbe
