import HealthProbe.Proofs.Agenda.Isolation

/-! # The pace of a periodic schedule

Runs of a periodic schedule never overlap and never come too fast: over any stretch of runs the ticks
fall behind their instants by whole delays, and what a tick may be late without moving the next one does
not add up. A schedule whose runs fit into its interval keeps time exactly.
-/
namespace HealthProbe

namespace Schedule

theorem now_le_nextDue (interval due now : Nat) : now + interval ≤ nextDue interval due now + 5 := by
  unfold nextDue
  split <;> omega

theorem nextDue_le {interval due now : Nat} (le : due ≤ now) :
    nextDue interval due now ≤ now + interval := by
  unfold nextDue
  split <;> omega

theorem nextDue_self (interval due : Nat) : nextDue interval due due = due + interval := by
  simp [nextDue]

section Slots
variable {s : Schedule} {cancel : Option Nat} {ties : Ties} {a k m : Nat} {p q : Slot}

@[simp] theorem run_start (n start : Nat) : (s.run cancel ties n start).start = start := by
  simp only [run]
  split <;> rfl

theorem slot?_zero (h : s.slot? cancel ties 0 = some p) : p = ⟨0, 0⟩ := by
  simp only [slot?] at h
  split at h
  · cases h
    rfl
  · cases h

/-- What a tick is late moves the next one but once; from there on ticks are an interval apart. -/
theorem due_window (hq : s.slot? cancel ties a = some q)
    (hp : s.slot? cancel ties (a + (m + 1)) = some p) : q.start + (m + 1) * s.interval ≤ p.due + 5 := by
  induction m generalizing p with
  | zero =>
    obtain ⟨q',hq',hnext⟩ := slot?_succ_eq_some hp
    rw [hq] at hq'
    cases hq'
    obtain ⟨_,_,hdue,_⟩ := nextSlot?_eq_some_iff.mp hnext
    have hnow := now_le_nextDue s.interval q.due q.start
    omega
  | succ m ih =>
    obtain ⟨p',hp',hnext⟩ := slot?_succ_eq_some hp
    obtain ⟨_,_,hdue,_⟩ := nextSlot?_eq_some_iff.mp hnext
    have hadd := add_interval_le_nextDue s.interval p'.due p'.start
    have hprev := ih hp'
    rw [Nat.succ_mul]
    omega

theorem start_window (hq : s.slot? cancel ties a = some q)
    (hp : s.slot? cancel ties (a + m) = some p) : q.start + m * s.interval ≤ p.start + 5 := by
  cases m with
  | zero =>
    rw [Nat.add_zero, hq] at hp
    cases hp
    omega
  | succ m =>
    have hdue := due_window hq hp
    have hle := (slot?_bounds hp).2
    omega

theorem start_le_stop (periodic : s.isSingle = false) (hp : s.slot? cancel ties k = some p) :
    p.start ≤ (s.run cancel ties k p.start).stop := by
  have hin : inTime cancel (ties.tick k) p.start = true := by
    cases k with
    | zero =>
      have hzero := slot?_zero hp
      subst hzero
      simpa [slot?, periodic] using hp
    | succ k =>
      obtain ⟨q,_,hnext⟩ := slot?_succ_eq_some hp
      exact (nextSlot?_eq_some_iff.mp hnext).2.2.2.2
  cases hend : inTime cancel (ties.run k) (p.start + s.lasts k) with
  | true =>
    rw [(run_of_inTime hend).1]
    omega
  | false =>
    cases cancel with
    | none => simp at hend
    | some c =>
      rw [(run_of_late hend).1]
      have hle := inTime_some_iff.mp hin
      omega

theorem stop_le_start (hq : s.slot? cancel ties k = some q)
    (hp : s.slot? cancel ties (k + 1) = some p) : (s.run cancel ties k q.start).stop ≤ p.start := by
  rw [slot?_succ hq] at hp
  obtain ⟨_,_,_,hstart,_⟩ := nextSlot?_eq_some_iff.mp hp
  omega

/-- Runs that fit into the interval leave every tick at its own instant. -/
theorem slot?_of_short
    (short : ∀ j < k, ∀ r, s.run? cancel ties j = some r → r.stop ≤ r.start + s.interval)
    (hp : s.slot? cancel ties k = some p) : p = ⟨k * s.interval, k * s.interval⟩ := by
  induction k generalizing p with
  | zero => simpa using slot?_zero hp
  | succ k ih =>
    obtain ⟨q,hq,hnext⟩ := slot?_succ_eq_some hp
    have hprev := ih (fun j hj => short j (by omega)) hq
    have hrun : s.run? cancel ties k = some (s.run cancel ties k q.start) := by simp [run?, hq]
    have hstop := short k (by omega) _ hrun
    obtain ⟨_,_,hdue,hstart,_⟩ := nextSlot?_eq_some_iff.mp hnext
    subst hprev
    rw [nextDue_self] at hdue
    rw [run_start] at hstop
    have hmul : (k + 1) * s.interval = k * s.interval + s.interval := Nat.succ_mul _ _
    obtain ⟨due,start⟩ := p
    simp only [Slot.mk.injEq] at *
    omega

/-- The next run takes place as soon as it may, if that is before the cancellation. -/
theorem next_run (periodic : s.isSingle = false) (hq : s.slot? cancel ties k = some q)
    (whole : (s.run cancel ties k q.start).close.isCrash = false)
    (early : ∀ c, cancel = some c →
      max (s.run cancel ties k q.start).stop (q.start + s.interval) < c) :
    ∃ p, s.slot? cancel ties (k + 1) = some p ∧
      p.start ≤ max (s.run cancel ties k q.start).stop (q.start + s.interval) := by
  have hdue : nextDue s.interval q.due q.start ≤ q.start + s.interval := nextDue_le (slot?_bounds hq).2
  have hin : inTime cancel (ties.tick (k + 1)) (max (s.run cancel ties k q.start).stop
      (nextDue s.interval q.due q.start)) = true := by
    cases hc : cancel with
    | none => rfl
    | some c =>
      subst hc
      have hlt := early c rfl
      exact inTime_some_iff.mpr (.inl (by omega))
  refine ⟨⟨_,_⟩,(slot?_succ hq).trans (nextSlot?_eq_some_iff.mpr ⟨periodic,whole,rfl,rfl,hin⟩),?_⟩
  dsimp only
  omega

end Slots

end Schedule

structure Paced (interval : Nat) (runs : List Run) : Prop where
  first : ∀ r, runs[0]? = some r → r.start = 0
  forward : ∀ (k : Nat) (r : Run), runs[k]? = some r → r.start ≤ r.stop
  apart : ∀ (k : Nat) (r r' : Run), runs[k]? = some r → runs[k + 1]? = some r' → r.stop ≤ r'.start
  floor : ∀ (k : Nat) (r : Run), runs[k]? = some r → k * interval ≤ r.start
  /-- The five milliseconds are the same for every stretch, however long. -/
  window : ∀ (a m : Nat) (r r' : Run), runs[a]? = some r → runs[a + m]? = some r' →
    r.start + m * interval ≤ r'.start + 5
  even : ∀ (k : Nat) (r : Run), (∀ j < k, ∀ q, runs[j]? = some q → q.stop ≤ q.start + interval) →
    runs[k]? = some r → r.start = k * interval

structure Prompt (cancel : Option Nat) (interval : Nat) (runs : List Run) : Prop where
  first : (∀ c, cancel = some c → 0 < c) → ∃ r, runs[0]? = some r
  next : ∀ (k : Nat) (r : Run), runs[k]? = some r → r.close.isCrash = false →
    (∀ c, cancel = some c → max r.stop (r.start + interval) < c) →
    ∃ r', runs[k + 1]? = some r' ∧ r'.start ≤ max r.stop (r.start + interval)

namespace Schedule
variable {s : Schedule} {cancel : Option Nat} {ties : Ties} {runs : List Run}

theorem run?_eq_some_iff {n : Nat} {r : Run} :
    s.run? cancel ties n = some r ↔
      ∃ p, s.slot? cancel ties n = some p ∧ s.run cancel ties n p.start = r := by
  simp [run?]

/-- The first runs of a schedule, however many, keep its pace. -/
theorem paced_of_prefix (periodic : s.isSingle = false)
    (first : ∀ k < runs.length, runs[k]? = s.run? cancel ties k) :
    Paced s.interval runs := by
  have slotOf : ∀ {k : Nat} {r : Run}, runs[k]? = some r →
      ∃ p, s.slot? cancel ties k = some p ∧ s.run cancel ties k p.start = r := by
    intro k r hr
    have hlt := (List.getElem?_eq_some_iff.mp hr).1
    exact run?_eq_some_iff.mp ((first k hlt).symm.trans hr)
  refine ⟨?_,?_,?_,?_,?_,?_⟩
  · intro r hr
    obtain ⟨p,hp,rfl⟩ := slotOf hr
    rw [run_start, slot?_zero hp]
  · intro k r hr
    obtain ⟨p,hp,rfl⟩ := slotOf hr
    rw [run_start]
    exact start_le_stop periodic hp
  · intro k r r' hr hr'
    obtain ⟨q,hq,rfl⟩ := slotOf hr
    obtain ⟨p,hp,rfl⟩ := slotOf hr'
    rw [run_start]
    exact stop_le_start hq hp
  · intro k r hr
    obtain ⟨p,hp,rfl⟩ := slotOf hr
    obtain ⟨hmul,hle⟩ := slot?_bounds hp
    rw [run_start]
    omega
  · intro a m r r' hr hr'
    obtain ⟨q,hq,rfl⟩ := slotOf hr
    obtain ⟨p,hp,rfl⟩ := slotOf hr'
    rw [run_start, run_start]
    exact start_window hq hp
  · intro k r short hr
    obtain ⟨p,hp,rfl⟩ := slotOf hr
    have hlt := (List.getElem?_eq_some_iff.mp hr).1
    have hslot := slot?_of_short (fun j hj q hq => short j hj q ((first j (by omega)).trans hq)) hp
    rw [run_start, hslot]

theorem Course.prompt (h : s.Course cancel ties runs) (periodic : s.isSingle = false) :
    Prompt cancel s.interval runs := by
  refine ⟨?_,?_⟩
  · intro early
    have hin : inTime cancel (ties.tick 0) 0 = true := by
      cases hc : cancel with
      | none => rfl
      | some c => exact inTime_some_iff.mpr (.inl (early c hc))
    have hslot : s.slot? cancel ties 0 = some ⟨0, 0⟩ := by simp [slot?, hin]
    exact ⟨_,(h 0).trans (run?_eq_some_iff.mpr ⟨_,hslot,rfl⟩)⟩
  · intro k r hr whole early
    obtain ⟨q,hq,rfl⟩ := run?_eq_some_iff.mp ((h k).symm.trans hr)
    rw [run_start] at early ⊢
    obtain ⟨p,hp,hle⟩ := next_run periodic hq whole early
    refine ⟨_,(h (k + 1)).trans (run?_eq_some_iff.mpr ⟨p,hp,rfl⟩),?_⟩
    rwa [run_start]

end Schedule

namespace Agenda

/-- The task at a place follows the schedule planned there, however far the agenda has come. -/
theorem task_after (cancel : Option Nat) {tasks : List (Schedule × Ties)} {i : Nat} {s : Schedule}
    {ties : Ties} (planned : tasks[i]? = some (s, ties)) (order : List Nat) :
    ∃ t, (after cancel tasks order).tasks[i]? = some t ∧ t.schedule = s ∧ t.ties = ties ∧
      t.Follows cancel := by
  have consistent : (after cancel tasks order).Consistent tasks := after_consistent order
  obtain ⟨t,ht,hplan⟩ := Option.map_eq_some_iff.mp ((consistent.tasks_getElem? i).trans planned)
  obtain ⟨rfl,rfl⟩ := Prod.mk.injEq .. ▸ hplan
  have hfollows := consistent.follows t (List.mem_of_getElem? ht)
  rw [after_cancel] at hfollows
  exact ⟨t,ht,rfl,rfl,hfollows⟩

/-- The runs of a periodic schedule keep the pace of its interval, beside whatever other schedules, in
whatever order the tasks go on and as far as they have come. Once the agenda has come to its end, none
was left out. -/
theorem keeps_pace (cancel : Option Nat) (tasks : List (Schedule × Ties)) (i : Nat) (s : Schedule)
    (ties : Ties) (planned : tasks[i]? = some (s, ties)) (periodic : 0 < s.interval) :
    (∀ order : List Nat, Paced s.interval ((after cancel tasks order).runsAt i)) ∧
    (∀ x : Execution cancel tasks, ∃ runs, x.report.runs[i]? = some (s.name, runs) ∧
      Paced s.interval runs ∧ Prompt cancel s.interval runs) ∧
    (∀ (rounds : Nat) (r : Report), run rounds cancel tasks = some r →
      ∃ x : Execution cancel tasks, r = x.report) := by
  have going : s.isSingle = false := by
    simp only [Schedule.isSingle, beq_eq_false_iff_ne]
    omega
  refine ⟨?_,?_,fun rounds r => run_eq_some⟩
  · intro order
    obtain ⟨t,ht,rfl,rfl,hfollows⟩ := task_after cancel planned order
    simp only [runsAt, ht, Option.map_some, Option.getD_some]
    exact Schedule.paced_of_prefix going fun k hk => hfollows.runs k (by simpa using hk)
  · intro x
    obtain ⟨t,ht,rfl,rfl,hfollows⟩ := task_after cancel planned x.order
    have hcourse := hfollows.course (x.ended t (List.mem_of_getElem? ht))
    have paced := Schedule.paced_of_prefix going fun k _ => hcourse k
    refine ⟨t.runs.reverse,?_,paced,hcourse.prompt going⟩
    simp [Execution.report, Agenda.report, Execution.final, ht]

/-- Runs of which the third overruns its interval by more than a tick may be late, and the second by
less. -/
def unevenSchedule : Schedule :=
  ⟨"dns", "network", 10, 0, fun n => .work ⟨([3, 14, 25] : List Nat).getD n 1, .ok .healthy, []⟩⟩

theorem keeps_pace_unevenSchedule :
    ∃ runs, Paced 10 runs ∧ Prompt (some 75) 10 runs ∧ runs.map Run.start = [0, 10, 24, 49, 59, 69] := by
  obtain ⟨_,ended,executed⟩ := keeps_pace (some 75) [(unevenSchedule, .work)] 0 unevenSchedule .work rfl
    (by decide)
  obtain ⟨r,hr⟩ := Option.isSome_iff_exists.mp (run_isSome 0 75 [(unevenSchedule, .work)])
  obtain ⟨x,rfl⟩ := executed 0 r hr
  obtain ⟨runs,hruns,paced,prompt⟩ := ended x
  have starts : (run 0 (some 75) [(unevenSchedule, .work)]).map
      (fun r => r.runs[0]?.map fun p => p.2.map Run.start) = some (some [0, 10, 24, 49, 59, 69]) := by rfl
  rw [hr, Option.map_some, hruns, Option.map_some, Option.some.injEq, Option.some.injEq] at starts
  exact ⟨runs,paced,prompt,starts⟩

end Agenda
end HealthProbe
