import HealthProbe.Proofs.Agenda.Progress
import Mathlib.Data.List.Perm.Basic
import Mathlib.Algebra.BigOperators.Group.List.Basic
import Mathlib.Algebra.Ring.Nat

/-! # Executions of an agenda

Tasks may go on in any order: an execution is an order of steps after which every task is over. The
agenda takes one of these orders, the one by instants. A step touches one task and adds the events of
that task, so an execution is made of the courses of its schedules, whatever the order was.
-/
namespace HealthProbe.Agenda

def follow (g : Agenda) (order : List Nat) : Agenda := order.foldl advance g

def after (cancel : Option Nat) (tasks : List (Schedule × Ties)) (order : List Nat) : Agenda :=
  (begin cancel tasks).follow order

structure Execution (cancel : Option Nat) (tasks : List (Schedule × Ties)) where
  order : List Nat
  ended : ∀ t ∈ (after cancel tasks order).tasks, t.IsOver

def Execution.final {cancel : Option Nat} {tasks : List (Schedule × Ties)}
    (x : Execution cancel tasks) : Agenda := after cancel tasks x.order

def runsAt (g : Agenda) (i : Nat) : List Run := (g.tasks[i]?.map fun t => t.runs.reverse).getD []

def added (g : Agenda) (i : Nat) : List TimedEvent :=
  (g.tasks[i]?.map fun t => (t.advance g.cancel).2.events).getD []

def addedAt (g : Agenda) (i : Nat) : List Nat → List TimedEvent
  | [] => []
  | k :: order => (if k = i then g.added k else []) ++ (g.advance k).addedAt i order

variable {cancel : Option Nat} {tasks : List (Schedule × Ties)} {g : Agenda}

/-! ## One step -/

theorem advance_of_some {i : Nat} {t : Task} (h : g.tasks[i]? = some t) :
    g.advance i = { g with
      tasks := g.tasks.set i (t.advance g.cancel).1
      events := g.events ++ (t.advance g.cancel).2.events
      lines := g.lines ++ (t.advance g.cancel).2.lines } := by
  simp [advance, h]

theorem advance_of_none {i : Nat} (h : g.tasks[i]? = none) : g.advance i = g := by
  simp [advance, h]

@[simp] theorem advance_cancel (i : Nat) : (g.advance i).cancel = g.cancel := by
  cases h : g.tasks[i]? with
  | none => rw [advance_of_none h]
  | some t => rw [advance_of_some h]

theorem advance_getElem? (i j : Nat) :
    (g.advance i).tasks[j]? =
      if i = j then g.tasks[j]?.map fun t => (t.advance g.cancel).1 else g.tasks[j]? := by
  cases h : g.tasks[i]? with
  | none =>
    rw [advance_of_none h]
    split
    · rename_i hij
      subst hij
      simp [h]
    · rfl
  | some t =>
    rw [advance_of_some h, List.getElem?_set]
    split
    · rename_i hij
      subst hij
      have hlt := (List.getElem?_eq_some_iff.mp h).1
      rw [h, if_pos hlt]
      rfl
    · rfl

/-! ## What every agenda on the way has -/

structure Consistent (tasks : List (Schedule × Ties)) (g : Agenda) : Prop where
  plans : g.tasks.map (fun t => (t.schedule, t.ties)) = tasks
  follows : ∀ t ∈ g.tasks, t.Follows g.cancel
  accounted : g.events.Perm (g.tasks.flatMap Task.counted)

theorem Consistent.planned (h : g.Consistent tasks) {t : Task} (ht : t ∈ g.tasks) :
    (t.schedule, t.ties) ∈ tasks :=
  h.plans ▸ List.mem_map_of_mem ht

theorem consistent_begin : (begin cancel tasks).Consistent tasks := by
  refine ⟨?_,?_,?_⟩
  · simp only [begin, List.map_map]
    exact List.map_id'' (fun _ => rfl) tasks
  · intro t ht
    obtain ⟨p,_,rfl⟩ := List.mem_map.mp ht
    exact Task.follows_begin p.1 p.2
  · simp [begin, List.flatMap_map, Task.begin, Task.counted]

theorem map_set_of_eq {α β : Type} {l : List α} {i : Nat} {a b : α} {f : α → β}
    (h : l[i]? = some a) (hb : f b = f a) : (l.set i b).map f = l.map f := by
  obtain ⟨hlt,rfl⟩ := List.getElem?_eq_some_iff.mp h
  rw [List.map_set, hb, ← List.map_set, List.set_getElem_self]

theorem flatMap_set_perm {α β : Type} {l : List α} {i : Nat} {a b : α} {f : α → List β} {xs : List β}
    (h : l[i]? = some a) (hb : f b = f a ++ xs) :
    ((l.set i b).flatMap f).Perm (l.flatMap f ++ xs) := by
  obtain ⟨hlt,rfl⟩ := List.getElem?_eq_some_iff.mp h
  have hset : ((l.set i b).flatMap f).Perm (f l[i] ++ xs ++ (l.eraseIdx i).flatMap f) := by
    simpa [hb] using (List.set_perm_cons_eraseIdx hlt b).flatMap_right f
  have hget : (l.flatMap f).Perm (f l[i] ++ (l.eraseIdx i).flatMap f) := by
    simpa using (List.getElem_cons_eraseIdx_perm hlt).symm.flatMap_right f
  refine hset.trans (List.Perm.trans ?_ (hget.symm.append_right xs))
  rw [List.append_assoc, List.append_assoc]
  exact List.perm_append_comm.append_left _

theorem Consistent.advance (h : g.Consistent tasks) (i : Nat) : (g.advance i).Consistent tasks := by
  cases hi : g.tasks[i]? with
  | none => rwa [advance_of_none hi]
  | some t =>
    rw [advance_of_some hi]
    refine ⟨?_,?_,?_⟩
    · exact (map_set_of_eq hi (by simp)).trans h.plans
    · intro u hu
      rcases List.mem_or_eq_of_mem_set hu with hu | rfl
      · exact h.follows u hu
      · exact (h.follows t (List.mem_of_getElem? hi)).advance
    · exact (h.accounted.append_right _).trans
        (flatMap_set_perm hi Task.counted_advance).symm

theorem follow_consistent (h : g.Consistent tasks) (order : List Nat) :
    (g.follow order).Consistent tasks := by
  induction order generalizing g with
  | nil => exact h
  | cons i order ih => exact ih (h.advance i)

theorem after_consistent (order : List Nat) : (after cancel tasks order).Consistent tasks :=
  follow_consistent consistent_begin order

@[simp] theorem after_cancel (order : List Nat) : (after cancel tasks order).cancel = cancel := by
  have follow_cancel : ∀ g : Agenda, (g.follow order).cancel = g.cancel := by
    induction order with
    | nil => exact fun _ => rfl
    | cons i order ih => exact fun g => (ih (g.advance i)).trans (advance_cancel i)
  exact follow_cancel _

/-! ## What the task at a place adds -/

def countedAt (g : Agenda) (i : Nat) : List TimedEvent := (g.tasks[i]?.map Task.counted).getD []

theorem countedAt_advance (i k : Nat) :
    (g.advance k).countedAt i = g.countedAt i ++ (if k = i then g.added k else []) := by
  rw [countedAt, advance_getElem?]
  split
  · rename_i hki
    subst hki
    cases h : g.tasks[k]? with
    | none => simp [countedAt, added, h]
    | some t => simp [countedAt, added, h, Task.counted_advance]
  · simp [countedAt]

theorem countedAt_follow (i : Nat) (order : List Nat) :
    (g.follow order).countedAt i = g.countedAt i ++ g.addedAt i order := by
  induction order generalizing g with
  | nil => simp [follow, addedAt]
  | cons k order ih =>
    rw [addedAt, ← List.append_assoc, ← countedAt_advance]
    exact ih

theorem countedAt_after (i : Nat) (order : List Nat) :
    (after cancel tasks order).countedAt i = (begin cancel tasks).addedAt i order := by
  have hbegin : (begin cancel tasks).countedAt i = [] := by
    cases h : tasks[i]? <;> simp [countedAt, begin, h, Task.begin, Task.counted]
  rw [after, countedAt_follow, hbegin, List.nil_append]

/-! ## The order by instants -/

theorem firstLeast_eq_none_iff {ts : List (Option Nat)} :
    firstLeast ts = none ↔ ∀ t ∈ ts, t = none := by
  induction ts with
  | nil => simp [firstLeast]
  | cons t ts ih =>
    cases t with
    | none =>
      cases h : firstLeast ts with
      | none => simpa [firstLeast, h] using ih.mp h
      | some p => simpa [firstLeast, h] using ih
    | some t =>
      cases h : firstLeast ts with
      | none => simp [firstLeast, h]
      | some p =>
        simp only [firstLeast, h, List.mem_cons, forall_eq_or_imp, reduceCtorEq, false_and, iff_false]
        split <;> simp

theorem firstLeast_mem {ts : List (Option Nat)} {i u : Nat} (h : firstLeast ts = some (i, u)) :
    ts[i]? = some (some u) := by
  induction ts generalizing i u with
  | nil => simp [firstLeast] at h
  | cons t ts ih =>
    simp only [firstLeast] at h
    split at h
    · cases h
    · rename_i j v hj
      cases h
      simpa using ih hj
    · cases h
      rfl
    · rename_i t j v hj
      split at h
      · cases h
        simpa using ih hj
      · cases h
        rfl

theorem next?_eq_none_iff : g.next? = none ↔ ∀ t ∈ g.tasks, t.IsOver := by
  simp [next?, firstLeast_eq_none_iff, Task.next?_eq_none_iff]

theorem next?_going {i : Nat} (h : g.next? = some i) :
    ∃ t, g.tasks[i]? = some t ∧ ¬ t.IsOver := by
  obtain ⟨⟨j,u⟩,hleast,rfl⟩ := Option.map_eq_some_iff.mp h
  have hmem := firstLeast_mem hleast
  rw [List.getElem?_map] at hmem
  obtain ⟨t,ht,hu⟩ := Option.map_eq_some_iff.mp hmem
  refine ⟨t,ht,fun ended => ?_⟩
  rw [Task.next?_eq_none_iff.mpr ended] at hu
  cases hu

theorem settle_eq_some {n : Nat} {g' : Agenda} (h : settle n g = some g') :
    ∃ order, g' = g.follow order ∧ ∀ t ∈ g'.tasks, t.IsOver := by
  induction n generalizing g with
  | zero =>
    simp only [settle] at h
    split at h
    · rename_i hnext
      cases h
      exact ⟨[],rfl,next?_eq_none_iff.mp hnext⟩
    · cases h
  | succ n ih =>
    simp only [settle] at h
    split at h
    · rename_i hnext
      cases h
      exact ⟨[],rfl,next?_eq_none_iff.mp hnext⟩
    · rename_i i _
      obtain ⟨order,hg,hover⟩ := ih h
      exact ⟨i :: order,hg,hover⟩

theorem run_eq_some {rounds : Nat} {r : Report} (h : run rounds cancel tasks = some r) :
    ∃ x : Execution cancel tasks, r = x.final.report := by
  obtain ⟨g',hsettle,rfl⟩ := Option.map_eq_some_iff.mp h
  obtain ⟨order,rfl,hover⟩ := settle_eq_some hsettle
  exact ⟨⟨order,hover⟩,rfl⟩

theorem sum_map_set_lt {α : Type} {l : List α} {i : Nat} {a b : α} {f : α → Nat}
    (h : l[i]? = some a) (lt : f b < f a) : ((l.set i b).map f).sum < (l.map f).sum := by
  obtain ⟨hi,rfl⟩ := List.getElem?_eq_some_iff.mp h
  rw [((List.set_perm_cons_eraseIdx hi b).map f).sum_nat,
    ← ((List.getElem_cons_eraseIdx_perm hi).map f).sum_nat, List.map_cons, List.map_cons,
    List.sum_cons, List.sum_cons]
  exact Nat.add_lt_add_right lt _

/-- An agenda settles in as many steps as its tasks have ranks below theirs, if every step takes a task to
a lower one. -/
theorem settle_isSome_of_rank (rank : Task → Nat)
    (step : ∀ t, t.Follows cancel → (t.schedule, t.ties) ∈ tasks → ¬ t.IsOver →
      rank (t.advance cancel).1 < rank t)
    {n : Nat} (h : g.Consistent tasks) (hc : g.cancel = cancel) (enough : (g.tasks.map rank).sum ≤ n) :
    (settle n g).isSome := by
  have less : ∀ {g : Agenda} {i : Nat}, g.Consistent tasks → g.cancel = cancel → g.next? = some i →
      ((g.advance i).tasks.map rank).sum < (g.tasks.map rank).sum := by
    intro g i h hc hn
    obtain ⟨t,ht,going⟩ := next?_going hn
    have hmem := List.mem_of_getElem? ht
    have hlt := step t (hc ▸ h.follows t hmem) (h.planned hmem) going
    rw [advance_of_some ht, hc]
    exact sum_map_set_lt ht hlt
  induction n generalizing g with
  | zero =>
    cases hn : g.next? with
    | none => simp [settle, hn]
    | some i =>
      have hlt := less h hc hn
      omega
  | succ n ih =>
    simp only [settle]
    split
    · rfl
    · rename_i i hn
      have hlt := less h hc hn
      exact ih (h.advance i) ((advance_cancel i).trans hc) (by omega)

theorem run_isSome_of_rank (rounds : Nat) (rank : Task → Nat)
    (start : ∀ p ∈ tasks, rank (Task.begin cancel p.1 p.2) ≤ steps cancel rounds p.1)
    (step : ∀ t, t.Follows cancel → (t.schedule, t.ties) ∈ tasks → ¬ t.IsOver →
      rank (t.advance cancel).1 < rank t) : (run rounds cancel tasks).isSome := by
  rw [run, Option.isSome_map]
  refine settle_isSome_of_rank rank step consistent_begin rfl ?_
  simp only [begin, List.map_map]
  clear step
  induction tasks with
  | nil => simp
  | cons p tasks ih =>
    obtain ⟨hp,hrest⟩ := List.forall_mem_cons.mp start
    simp only [List.map_cons, List.sum_cons, List.foldr_cons, Function.comp_apply]
    exact Nat.add_le_add hp (ih hrest)

/-- Under a cancellation an agenda always comes to its end. -/
theorem run_isSome (rounds c : Nat) (tasks : List (Schedule × Ties)) :
    (run rounds (some c) tasks).isSome := by
  refine run_isSome_of_rank rounds (Task.stepsLeft c) ?_ ?_
  · intro p _
    exact Nat.le_of_eq (Task.stepsLeft_begin p.1 p.2 rounds)
  · intro t follows _ going
    exact follows.stepsLeft_advance going

end HealthProbe.Agenda
