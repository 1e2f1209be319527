import HealthProbe.Proofs.Agenda.Accounting

/-! # Schedules do not disturb each other

The runs of a schedule and the events that it adds depend on the schedule, the cancellation and its ties
alone. They are the same in every agenda that holds it, at whatever place, beside whatever others, and in
whatever order the tasks went on.
-/
namespace HealthProbe.Agenda

variable {cancel : Option Nat} {tasks tasks' : List (Schedule × Ties)} {g h : Agenda} {i j : Nat}

def Execution.report (x : Execution cancel tasks) : Report := x.final.report

def Execution.addedAt (x : Execution cancel tasks) (i : Nat) : List TimedEvent :=
  (begin cancel tasks).addedAt i x.order

theorem Consistent.tasks_getElem? (hg : g.Consistent tasks) (i : Nat) :
    g.tasks[i]?.map (fun t => (t.schedule, t.ties)) = tasks[i]? := by
  rw [← List.getElem?_map, hg.plans]

theorem flatMap_eq_range {α β : Type} (l : List α) (f : α → List β) :
    l.flatMap f = (List.range l.length).flatMap fun i => (l[i]?.map f).getD [] := by
  induction l with
  | nil => rfl
  | cons a l ih =>
    rw [List.length_cons, List.range_succ_eq_map, List.flatMap_cons, List.flatMap_cons, List.flatMap_map,
      ih]
    simp

theorem Consistent.events_perm (hg : g.Consistent tasks) :
    g.events.Perm ((List.range tasks.length).flatMap g.countedAt) := by
  have hlen : tasks.length = g.tasks.length := by rw [← hg.plans, List.length_map]
  rw [hlen]
  exact flatMap_eq_range g.tasks Task.counted ▸ hg.accounted

/-- As far as two agendas have come, a schedule that both hold has had the same runs in both. -/
theorem runsAt_agree (hg : g.Consistent tasks) (hh : h.Consistent tasks') (hc : g.cancel = h.cancel)
    (same : tasks[i]? = tasks'[j]?) {k : Nat} (hi : k < (g.runsAt i).length)
    (hj : k < (h.runsAt j).length) : (g.runsAt i)[k]? = (h.runsAt j)[k]? := by
  rw [← hg.tasks_getElem? i, ← hh.tasks_getElem? j] at same
  cases ht : g.tasks[i]? with
  | none => simp [runsAt, ht] at hi
  | some t =>
    cases hu : h.tasks[j]? with
    | none => simp [runsAt, hu] at hj
    | some u =>
      simp only [ht, hu, Option.map_some, Option.some.injEq, Prod.mk.injEq] at same
      simp only [runsAt, ht, hu, Option.map_some, Option.getD_some, List.length_reverse] at hi hj ⊢
      rw [(hg.follows t (List.mem_of_getElem? ht)).runs k hi,
        (hh.follows u (List.mem_of_getElem? hu)).runs k hj, same.1, same.2, hc]

/-- When both have come to their end, it has had the same runs and added the same events. -/
theorem Execution.agree (x : Execution cancel tasks) (y : Execution cancel tasks')
    (same : tasks[i]? = tasks'[j]?) :
    x.report.runs[i]? = y.report.runs[j]? ∧ x.addedAt i = y.addedAt j := by
  have hx : x.final.Consistent tasks := after_consistent x.order
  have hy : y.final.Consistent tasks' := after_consistent y.order
  have hcx : x.final.cancel = cancel := after_cancel x.order
  have hcy : y.final.cancel = cancel := after_cancel y.order
  rw [← hx.tasks_getElem? i, ← hy.tasks_getElem? j] at same
  rw [Execution.addedAt, ← countedAt_after, Execution.addedAt, ← countedAt_after]
  simp only [Execution.report, Agenda.report, List.getElem?_map, countedAt, ← Execution.final.eq_def]
  cases ht : x.final.tasks[i]? with
  | none =>
    rw [ht] at same
    rw [Option.map_eq_none_iff.mp same.symm]
    exact ⟨rfl,rfl⟩
  | some t =>
    rw [ht] at same
    obtain ⟨u,hu,hplan⟩ := Option.map_eq_some_iff.mp same.symm
    obtain ⟨hs,hties⟩ := Prod.mk.injEq .. ▸ hplan
    have memt := List.mem_of_getElem? ht
    have memu := List.mem_of_getElem? hu
    have ct := (hx.follows t memt).course (x.ended t memt)
    have cu := (hy.follows u memu).course (y.ended u memu)
    rw [hcx] at ct
    rw [hcy, hs, hties] at cu
    have hruns := ct.unique cu
    simp [hu, hs, Task.counted, hruns]

theorem Execution.count_append {as bs : List (Schedule × Ties)} (x : Execution cancel (as ++ bs))
    (y : Execution cancel as) (z : Execution cancel bs) (e : Event) :
    x.final.counters.count e = y.final.counters.count e + z.final.counters.count e := by
  rw [x.accounts.count, y.accounts.count, z.accounts.count, List.map_append, List.sum_append_nat]

/-- A schedule has the same runs in any two agendas, as far as they have come. Once they have come to
their end it has also added the same events, whether another schedule was replaced by any other or left
out; all events are those that the schedules added, and the counts of two lists of schedules add up. What
the agenda carries out is such an execution, and under a cancellation it comes to its end. -/
theorem isolation (cancel : Option Nat) :
    (∀ (tasks tasks' : List (Schedule × Ties)) (i j : Nat), tasks[i]? = tasks'[j]? →
      ∀ (order order' : List Nat) (k : Nat),
        k < ((after cancel tasks order).runsAt i).length →
        k < ((after cancel tasks' order').runsAt j).length →
        ((after cancel tasks order).runsAt i)[k]? = ((after cancel tasks' order').runsAt j)[k]?) ∧
    (∀ (tasks : List (Schedule × Ties)) (i : Nat) (new : Schedule × Ties) (x : Execution cancel tasks)
      (y : Execution cancel (tasks.set i new)) (j : Nat), j ≠ i →
        x.report.runs[j]? = y.report.runs[j]? ∧ x.addedAt j = y.addedAt j) ∧
    (∀ (tasks : List (Schedule × Ties)) (i : Nat) (x : Execution cancel tasks)
      (y : Execution cancel (tasks.eraseIdx i)) (j : Nat),
        (j < i → x.report.runs[j]? = y.report.runs[j]? ∧ x.addedAt j = y.addedAt j) ∧
        (i ≤ j → x.report.runs[j + 1]? = y.report.runs[j]? ∧ x.addedAt (j + 1) = y.addedAt j)) ∧
    (∀ (tasks : List (Schedule × Ties)) (x : Execution cancel tasks),
      x.report.events.Perm ((List.range tasks.length).flatMap x.addedAt)) ∧
    (∀ (as bs : List (Schedule × Ties)) (x : Execution cancel (as ++ bs)) (y : Execution cancel as)
      (z : Execution cancel bs) (e : Event),
        x.report.counters.count e = y.report.counters.count e + z.report.counters.count e) ∧
    (∀ (rounds : Nat) (tasks : List (Schedule × Ties)) (r : Report), run rounds cancel tasks = some r →
      ∃ x : Execution cancel tasks, r = x.report) ∧
    (∀ (rounds c : Nat) (tasks : List (Schedule × Ties)), cancel = some c →
      (run rounds cancel tasks).isSome) := by
  refine ⟨?_,?_,?_,?_,fun as bs x y z e => x.count_append y z e,fun _ _ _ => run_eq_some,?_⟩
  · intro tasks tasks' i j same order order' k hi hj
    exact runsAt_agree (after_consistent order) (after_consistent order') (by simp) same hi hj
  · intro tasks i new x y j ne
    exact x.agree y (List.getElem?_set_ne (Ne.symm ne)).symm
  · intro tasks i x y j
    exact ⟨fun lt => x.agree y (List.getElem?_eraseIdx_of_lt lt).symm,
      fun le => x.agree y (List.getElem?_eraseIdx_of_ge le).symm⟩
  · intro tasks x
    have hadded : x.addedAt = x.final.countedAt := funext fun i => (countedAt_after i x.order).symm
    rw [hadded]
    exact (after_consistent x.order).events_perm
  · rintro rounds c tasks rfl
    exact run_isSome rounds c tasks

/-- The cut schedule is replaced by one that crashes at once, and left out; the first one does not
notice. -/
theorem isolation_fourSchedules :
    ∃ x : Execution (some 25) fourSchedules,
    ∃ y : Execution (some 25)
      (fourSchedules.set 2 (⟨"loud", "network", 1, 0, fun _ => .crash 0 "no answer"⟩, .work)),
    ∃ z : Execution (some 25) (fourSchedules.eraseIdx 2), 0 ≠ 2 ∧ 0 < 2 ∧
      x.report.runs[0]? = y.report.runs[0]? ∧ x.addedAt 0 = y.addedAt 0 ∧
      x.report.runs[0]? = z.report.runs[0]? ∧ x.addedAt 0 = z.addedAt 0 ∧
      (x.report.runs[0]?.map fun p => p.2.map Run.start) = some [0, 10, 20] := by
  obtain ⟨_,replaced,left,_,_,executed,ends⟩ := isolation (some 25)
  have execution (tasks : List (Schedule × Ties)) :
      ∃ x : Execution (some 25) tasks, run 0 (some 25) tasks = some x.report := by
    obtain ⟨r,hr⟩ := Option.isSome_iff_exists.mp (ends 0 25 tasks rfl)
    obtain ⟨x,rfl⟩ := executed 0 tasks r hr
    exact ⟨x,hr⟩
  obtain ⟨x,hx⟩ := execution fourSchedules
  obtain ⟨y,_⟩ := execution (fourSchedules.set 2 _)
  obtain ⟨z,_⟩ := execution (fourSchedules.eraseIdx 2)
  obtain ⟨hruns,hadded⟩ := replaced fourSchedules 2 _ x y 0 (by decide)
  obtain ⟨zruns,zadded⟩ := (left fourSchedules 2 x z 0).1 (by decide)
  have starts : (run 0 (some 25) fourSchedules).map
      (fun r => r.runs[0]?.map fun p => p.2.map Run.start) = some (some [0, 10, 20]) := by rfl
  rw [hx, Option.map_some, Option.some.injEq] at starts
  exact ⟨x,y,z,by decide,by decide,hruns,hadded,zruns,zadded,starts⟩

end HealthProbe.Agenda
