import HealthProbe.Proofs.Agenda.Outcome
import HealthProbe.Proofs.Agenda.Pacing
import HealthProbe.Proofs.Agenda.Starts
import HealthProbe.Proofs.Greatest

/-! # The end of an agenda

A schedule that nothing cancels is over with its last run, the only one or one that crashes, and goes on
for ever if it has none. The cancellation ends whatever is not over before. So the agenda stops when the
last of its schedules is over, or at the cancellation, and no run is under way then.
-/
namespace HealthProbe

/-! ## The last run of a schedule -/

namespace Schedule
variable {s : Schedule} {cancel : Option Nat} {ties ties' : Ties} {n m start c t u : Nat} {p : Slot}
  {r r' : Run}

def isLast (s : Schedule) (r : Run) : Bool := s.isSingle || r.close.isCrash

/-- When a schedule that nothing cancels is over: with its one run, or with a run that crashes. -/
def EndsAt (s : Schedule) (t : Nat) : Prop :=
  ∃ n due start d fate, s.Starts none .work n due start ∧
    (s.behaviour n).within s.limit = (d, fate) ∧ (s.interval = 0 ∨ ∃ words, fate = .error words) ∧
    start + d = t

theorem stop_run_le : (s.run (some c) ties n start).stop ≤ c := by
  cases h : inTime (some c) (ties.run n) (start + s.lasts n) with
  | true =>
    rw [(run_of_inTime h).1]
    have := inTime_some_iff.mp h
    omega
  | false => exact Nat.le_of_eq (run_of_late h).1

theorem start_le_stop_of_slot? (hp : s.slot? cancel ties n = some p) :
    p.start ≤ (s.run cancel ties n p.start).stop := by
  cases hs : s.isSingle with
  | false => exact start_le_stop hs hp
  | true =>
    cases n with
    | zero =>
      rw [slot?_zero hp]
      exact Nat.zero_le _
    | succ n =>
      obtain ⟨q,_,hnext⟩ := slot?_succ_eq_some hp
      have periodic := (nextSlot?_eq_some_iff.mp hnext).1
      rw [hs] at periodic
      cases periodic

theorem run_of_early (early : start + s.lasts n < c) :
    s.run (some c) ties n start = s.run none ties' n start := by
  have hin : inTime (some c) (ties.run n) (start + s.lasts n) = true := inTime_some_iff.mpr (.inl early)
  have told : ∀ l : LogLine, (decide (l.time ≤ start + s.lasts n) && inTime (some c) (ties.run n) l.time) =
      decide (l.time ≤ start + s.lasts n) := by
    intro l
    by_cases hl : l.time ≤ start + s.lasts n
    · have hlt : inTime (some c) (ties.run n) l.time = true := inTime_some_iff.mpr (.inl (by omega))
      simp [hl, hlt]
    · simp [hl]
  simp only [lasts] at hin told
  simp only [run, hin, inTime_none, if_true, Bool.and_true]
  exact congrArg (Run.mk _ _ _ true) (List.filter_congr fun l _ => told l)

theorem run?_iff_of_lt (early : r.stop < c) :
    s.run? (some c) ties n = some r ↔ s.run? none ties' n = some r := by
  rw [run?_eq_some_iff, run?_eq_some_iff]
  constructor
  · rintro ⟨p,hp,rfl⟩
    have forward := start_le_stop_of_slot? hp
    cases h : inTime (some c) (ties.run n) (p.start + s.lasts n) with
    | true =>
      rw [(run_of_inTime h).1] at early
      exact ⟨p,(slot?_iff_of_lt (by omega)).mp hp,(run_of_early early).symm⟩
    | false =>
      rw [(run_of_late h).1] at early
      exact absurd early (Nat.lt_irrefl c)
  · rintro ⟨p,hp,rfl⟩
    have whole : inTime none (ties'.run n) (p.start + s.lasts n) = true := inTime_none ..
    rw [(run_of_inTime whole).1] at early
    exact ⟨p,(slot?_iff_of_lt (by omega)).mpr hp,run_of_early early⟩

theorem run?_iff_of_early (early : ∀ c, cancel = some c → r.stop < c) :
    s.run? cancel ties n = some r ↔ s.run? none .work n = some r := by
  cases cancel with
  | none =>
    have later := Nat.lt_succ_self r.stop
    have capped : s.run? (some (r.stop + 1)) ties n = some r ↔ s.run? none ties n = some r :=
      run?_iff_of_lt later
    exact capped.symm.trans (run?_iff_of_lt later)
  | some c => exact run?_iff_of_lt (early c rfl)

theorem endsAt_iff_run? :
    s.EndsAt t ↔ ∃ n r, s.run? none .work n = some r ∧ s.isLast r = true ∧ r.stop = t := by
  have ended {n start d : Nat} {fate : Fate} (lasts : (s.behaviour n).within s.limit = (d, fate)) :
      (s.run none .work n start).stop = start + d ∧
        (s.isLast (s.run none .work n start) = true ↔ s.interval = 0 ∨ ∃ words, fate = .error words) := by
    have ends : s.Ends none .work n start (start + d) (some fate) := .done lasts (inTime_none ..)
    refine ⟨(ends_iff.mp ends).1,?_⟩
    rw [isLast, Bool.or_eq_true, isSingle_iff, ← Bool.not_eq_false, isCrash_run_of_ends ends]
    simp
  constructor
  · rintro ⟨n,due,start,d,fate,starts,lasts,last,rfl⟩
    exact ⟨n,_,run?_eq_some_iff.mpr ⟨_,starts_iff.mp starts,rfl⟩,(ended lasts).2.mpr last,(ended lasts).1⟩
  · rintro ⟨n,r,hr,last,rfl⟩
    obtain ⟨⟨due,start⟩,slot,rfl⟩ := run?_eq_some_iff.mp hr
    have lasts : (s.behaviour n).within s.limit = (_, _) := rfl
    exact ⟨n,due,start,_,_,starts_iff.mpr slot,lasts,(ended lasts).2.mp last,(ended lasts).1.symm⟩

theorem endsAt_iff (ties : Ties) (early : ∀ c, cancel = some c → t < c) :
    s.EndsAt t ↔ ∃ n r, s.run? cancel ties n = some r ∧ s.isLast r = true ∧ r.stop = t := by
  rw [endsAt_iff_run?]
  constructor
  · rintro ⟨n,r,hr,last,rfl⟩
    exact ⟨n,r,(run?_iff_of_early early).mpr hr,last,rfl⟩
  · rintro ⟨n,r,hr,last,rfl⟩
    exact ⟨n,r,(run?_iff_of_early early).mp hr,last,rfl⟩

theorem run?_none_of_run?_none (h : s.run? cancel ties n = none) (le : n ≤ m) :
    s.run? cancel ties m = none :=
  run?_none_of_le (Option.map_eq_none_iff.mp h) le

theorem run?_succ_of_last (hr : s.run? cancel ties n = some r) (last : s.isLast r = true) :
    s.run? cancel ties (n + 1) = none := by
  obtain ⟨p,hp,rfl⟩ := run?_eq_some_iff.mp hr
  have hnext : s.slot? cancel ties (n + 1) = none := (slot?_succ hp).trans (if_pos last)
  exact Option.map_eq_none_iff.mpr hnext

theorem last_le (hr : s.run? cancel ties n = some r) (last : s.isLast r = true)
    (hr' : s.run? cancel ties m = some r') : m ≤ n := by
  rcases Nat.lt_or_ge n m with lt | le
  · rw [run?_none_of_run?_none (run?_succ_of_last hr last) lt] at hr'
    cases hr'
  · exact le

theorem last_unique (hr : s.run? cancel ties n = some r) (last : s.isLast r = true)
    (hr' : s.run? cancel ties m = some r') (last' : s.isLast r' = true) : r = r' := by
  have same : n = m := Nat.le_antisymm (last_le hr' last' hr) (last_le hr last hr')
  rw [same, hr'] at hr
  exact (Option.some.inj hr).symm

theorem EndsAt.unique (ht : s.EndsAt t) (hu : s.EndsAt u) : t = u := by
  obtain ⟨n,r,hr,last,rfl⟩ := endsAt_iff_run?.mp ht
  obtain ⟨m,r',hr',last',rfl⟩ := endsAt_iff_run?.mp hu
  rw [last_unique hr last hr' last']

/-- A schedule that runs once is over when its run is, cut at its limit. -/
theorem endsAt_of_single (single : s.isSingle = true) :
    s.EndsAt ((s.behaviour 0).within s.limit).1 :=
  ⟨0,0,0,_,_,.first (.inl (isSingle_iff.mp single)),rfl,.inl (isSingle_iff.mp single),Nat.zero_add _⟩

/-- When the task of a schedule is over: with the last run, if this ends before the cancellation, and at
the cancellation otherwise. -/
structure StopsAt (s : Schedule) (cancel : Option Nat) (t : Nat) : Prop where
  le : ∀ c, cancel = some c → t ≤ c
  own : (∀ c, cancel = some c → t < c) → s.EndsAt t
  early : ∀ u, s.EndsAt u → (∀ c, cancel = some c → u < c) → t = u

theorem StopsAt.eq_min (h : s.StopsAt (some c) t) (ends : s.EndsAt u) : t = min u c := by
  have le := h.le c rfl
  rcases Nat.lt_or_ge u c with early | late
  · rw [h.early u ends fun _ hc => Option.some.inj hc ▸ early]
    omega
  · rcases Nat.lt_or_ge t c with lt | ge
    · have same : t = u := (h.own fun _ hc => Option.some.inj hc ▸ lt).unique ends
      omega
    · omega

theorem StopsAt.eq_of_never (h : s.StopsAt (some c) t) (never : ∀ u, s.EndsAt u → c ≤ u) : t = c := by
  rcases Nat.lt_or_ge t c with lt | ge
  · have own := never t (h.own fun _ hc => Option.some.inj hc ▸ lt)
    omega
  · exact Nat.le_antisymm (h.le c rfl) ge

theorem Course.mem_iff {runs : List Run} (h : s.Course cancel ties runs) :
    r ∈ runs ↔ ∃ n, s.run? cancel ties n = some r := by
  rw [List.mem_iff_getElem?]
  exact exists_congr fun n => by rw [h n]

/-- A schedule that runs once has one run, in the first instant. It has started, unless it was cancelled
in that instant. -/
theorem Course.of_single {runs : List Run} (h : s.Course cancel ties runs) (single : s.isSingle = true) :
    ∃ r, runs = [r] ∧ r.start = 0 ∧ (cancel ≠ some 0 → r.started = true) := by
  have slot : s.slot? cancel ties 0 = some ⟨0, 0⟩ := by simp [slot?, single]
  have first : s.run? cancel ties 0 = some (s.run cancel ties 0 0) := run?_eq_some_iff.mpr ⟨_,slot,rfl⟩
  have last : s.isLast (s.run cancel ties 0 0) = true := by rw [isLast, single, Bool.true_or]
  have alone : s.Course cancel ties [s.run cancel ties 0 0] := by
    intro k
    cases k with
    | zero => exact first.symm
    | succ k =>
      rw [run?_none_of_run?_none (run?_succ_of_last first last) (Nat.succ_le_succ k.zero_le)]
      rfl
  refine ⟨_,h.unique alone,run_start ..,?_⟩
  intro later
  cases cancel with
  | none => simp [run]
  | some c =>
    have pos : 0 < c := Nat.pos_of_ne_zero fun zero => later (zero ▸ rfl)
    simp only [run]
    split
    · rfl
    · simp [pos]

structure Shows (s : Schedule) (cancel : Option Nat) (ties : Ties) (runs : List Run) : Prop where
  starts : ∀ n start, (∃ r, runs[n]? = some r ∧ r.start = start) ↔ ∃ due, s.Starts cancel ties n due start
  ends : ∀ n r, runs[n]? = some r → ∃ fate, s.Ends cancel ties n r.start r.stop fate

theorem Course.shows {runs : List Run} (h : s.Course cancel ties runs) : s.Shows cancel ties runs := by
  refine ⟨?_,?_⟩
  · intro n start
    simp only [h n, run?_eq_some_iff, starts_iff]
    constructor
    · rintro ⟨_,⟨p,slot,rfl⟩,begun⟩
      rw [run_start] at begun
      exact ⟨p.due,begun ▸ slot⟩
    · rintro ⟨due,slot⟩
      exact ⟨_,⟨_,slot,rfl⟩,run_start ..⟩
  · intro n r hr
    rw [h n] at hr
    obtain ⟨p,_,rfl⟩ := run?_eq_some_iff.mp hr
    rw [run_start]
    exact s.exists_ends cancel ties n p.start

end Schedule

/-! ## A task on its way to its end -/

def Stage.since : Stage → Nat
  | idle since _ => since
  | busy r _ => r.start
  | ended time _ => time

namespace Task
variable {cancel : Option Nat} {t : Task}

/-- A task that is not over has had no last run; one that is has ended with its last run, or at the
cancellation. -/
def Concludes (cancel : Option Nat) (t : Task) : Prop :=
  match t.stage with
  | .ended time _ => (∃ r ∈ t.runs, t.schedule.isLast r = true ∧ r.stop = time) ∨
      (cancel = some time ∧ ∀ r ∈ t.runs, t.schedule.isLast r = false)
  | _ => ∀ r ∈ t.runs, t.schedule.isLast r = false

structure Timed (cancel : Option Nat) (t : Task) : Prop where
  past : ∀ r ∈ t.runs, r.stop ≤ t.stage.since
  within : ∀ c, cancel = some c → t.stage.since ≤ c
  concludes : t.Concludes cancel

theorem timed_begin (s : Schedule) (ties : Ties) : (begin cancel s ties).Timed cancel := by
  have origin : (begin cancel s ties).stage.since = 0 := by
    simp only [begin]
    split <;> simp [Stage.since]
  refine ⟨by simp [begin],fun c _ => origin ▸ Nat.zero_le c,?_⟩
  cases hs : s.isSingle <;> simp [Concludes, begin, hs]

theorem afterRun_of_last {s : Schedule} {r : Run} (last : s.isLast r = true) (due : Nat) :
    ∃ ending, afterRun s r due = .ended r.stop ending := by
  rw [Schedule.isLast, Bool.or_eq_true] at last
  rcases last with single | crashed
  · exact ⟨_,afterRun_of_single single r due⟩
  · cases hc : r.close with
    | crashed words => exact ⟨_,by rw [afterRun, hc]⟩
    | _ => simp [hc, Close.isCrash] at crashed

theorem afterRun_of_not_last {s : Schedule} {r : Run} (going : s.isLast r = false) (due : Nat) :
    afterRun s r due = .idle r.stop due := by
  obtain ⟨periodic,whole⟩ := Bool.or_eq_false_iff.mp going
  unfold afterRun
  split
  · rename_i hc
    simp [hc, Close.isCrash] at whole
  · simp [periodic]

theorem Timed.advance (h : t.Timed cancel) (follows : t.Follows cancel) :
    (t.advance cancel).1.Timed cancel := by
  obtain ⟨past,within,concludes⟩ := h
  cases hs : t.stage with
  | idle since due =>
    rw [hs] at past within
    simp only [Concludes, hs] at concludes
    simp only [Task.advance, hs]
    split
    · rename_i hin
      refine ⟨?_,?_,concludes⟩
      · intro r hr
        have le := past r hr
        simp only [Stage.since, Schedule.run_start] at le ⊢
        omega
      · rintro c rfl
        have le := Schedule.inTime_some_iff.mp hin
        simp only [Stage.since, Schedule.run_start]
        omega
    · rename_i hin
      cases cancel with
      | none => exact absurd rfl hin
      | some c =>
        have le : since ≤ c := within c rfl
        have time : max since ((some c).getD (max since due)) = c := Nat.max_eq_right le
        rw [time]
        exact ⟨fun r hr => (past r hr).trans le,fun _ hc => Nat.le_of_eq (Option.some.inj hc),
          .inr ⟨rfl,concludes⟩⟩
  | busy r due =>
    have hstage := follows.stage
    rw [hs] at hstage past
    obtain ⟨p,hp,hr,_⟩ := hstage
    simp only [Concludes, hs] at concludes
    have forward : r.start ≤ r.stop := by
      rw [hr, Schedule.run_start]
      exact Schedule.start_le_stop_of_slot? hp
    have earlier : ∀ r' ∈ r :: t.runs, r'.stop ≤ r.stop := by
      intro r' hr'
      rcases List.mem_cons.mp hr' with rfl | hr'
      · exact Nat.le_refl _
      · exact (past r' hr').trans forward
    have bound : ∀ c, cancel = some c → r.stop ≤ c := by
      rintro c rfl
      exact hr ▸ Schedule.stop_run_le
    simp only [Task.advance, hs]
    cases last : t.schedule.isLast r with
    | true =>
      obtain ⟨ending,after⟩ := afterRun_of_last last due
      rw [after]
      exact ⟨earlier,bound,.inl ⟨r,List.mem_cons_self,last,rfl⟩⟩
    | false =>
      rw [afterRun_of_not_last last]
      exact ⟨earlier,bound,List.forall_mem_cons.mpr ⟨last,concludes⟩⟩
  | ended time ending =>
    simp only [Task.advance, hs]
    exact ⟨past,within,concludes⟩

theorem Timed.stopsAt (h : t.Timed cancel) (follows : t.Follows cancel) (ended : t.IsOver) :
    t.schedule.StopsAt cancel (Agenda.stopOf t) := by
  have course := follows.course ended
  obtain ⟨time,ending,hs⟩ := ended
  obtain ⟨_,within,concludes⟩ := h
  have stop : Agenda.stopOf t = time := by rw [Agenda.stopOf, hs]
  rw [hs] at within
  simp only [Concludes, hs] at concludes
  rw [stop]
  rcases concludes with ⟨r,hr,last,rfl⟩ | ⟨hc,none⟩
  · obtain ⟨n,hn⟩ := course.mem_iff.mp (List.mem_reverse.mpr hr)
    refine ⟨within,fun early => (Schedule.endsAt_iff t.ties early).mpr ⟨n,r,hn,last,rfl⟩,?_⟩
    intro u ends early
    obtain ⟨m,r',hm,last',rfl⟩ := (Schedule.endsAt_iff t.ties early).mp ends
    rw [Schedule.last_unique hn last hm last']
  · refine ⟨within,fun early => absurd (early time hc) (Nat.lt_irrefl time),?_⟩
    intro u ends early
    obtain ⟨m,r,hm,last,_⟩ := (Schedule.endsAt_iff t.ties early).mp ends
    rw [none r (List.mem_reverse.mp (course.mem_iff.mpr ⟨m,hm⟩))] at last
    cases last

end Task

/-! ## The end of all tasks -/

namespace Agenda
variable {cancel : Option Nat} {tasks : List (Schedule × Ties)} {t u : Nat}

structure LatestEnd (tasks : List (Schedule × Ties)) (t : Nat) : Prop where
  all : ∀ p ∈ tasks, ∃ u, p.1.EndsAt u ∧ u ≤ t
  reached : t = 0 ∨ ∃ p ∈ tasks, p.1.EndsAt t

/-- When an agenda stops: at the cancellation, if a periodic schedule would go on until then, and with
the last of the schedules otherwise, or at the cancellation if that comes first. -/
inductive StopsAt (cancel : Option Nat) (tasks : List (Schedule × Ties)) : Nat → Prop
  | cancelled {c : Nat} {p : Schedule × Ties} (cancels : cancel = some c) (planned : p ∈ tasks)
      (periodic : p.1.isSingle = false) (never : ∀ u, p.1.EndsAt u → c ≤ u) : StopsAt cancel tasks c
  | finished {latest : Nat} (ends : LatestEnd tasks latest)
      (before : ∀ c, cancel = some c → ∀ p ∈ tasks, p.1.isSingle = false → ∃ u, p.1.EndsAt u ∧ u < c) :
      StopsAt cancel tasks (cancel.elim latest (min latest))

theorem LatestEnd.unique (ht : LatestEnd tasks t) (hu : LatestEnd tasks u) : t = u := by
  have least : ∀ {t u : Nat}, LatestEnd tasks t → LatestEnd tasks u → t ≤ u := by
    intro t u ht hu
    rcases ht.reached with rfl | ⟨p,hp,ends⟩
    · exact Nat.zero_le u
    · obtain ⟨v,ends',le⟩ := hu.all p hp
      exact ends.unique ends' ▸ le
  exact Nat.le_antisymm (least ht hu) (least hu ht)

theorem StopsAt.unique (ht : StopsAt cancel tasks t) (hu : StopsAt cancel tasks u) : t = u := by
  cases ht with
  | cancelled cancels planned periodic never =>
    cases hu with
    | cancelled cancels' => exact Option.some.inj (cancels.symm.trans cancels')
    | finished _ before =>
      obtain ⟨v,ends,lt⟩ := before _ cancels _ planned periodic
      exact absurd (never v ends) (Nat.not_le.mpr lt)
  | finished ends before =>
    cases hu with
    | cancelled cancels planned periodic never =>
      obtain ⟨v,ends,lt⟩ := before _ cancels _ planned periodic
      exact absurd (never v ends) (Nat.not_le.mpr lt)
    | finished ends' _ => rw [ends.unique ends']

theorem exists_latestEnd (ends : ∀ p ∈ tasks, ∃ u, p.1.EndsAt u) : ∃ t, LatestEnd tasks t := by
  induction tasks with
  | nil => exact ⟨0,by simp,.inl rfl⟩
  | cons p tasks ih =>
    obtain ⟨⟨u,hu⟩,rest⟩ := List.forall_mem_cons.mp ends
    obtain ⟨t,ht⟩ := ih rest
    have all : ∀ q ∈ p :: tasks, ∃ v, q.1.EndsAt v ∧ v ≤ max u t := by
      refine List.forall_mem_cons.mpr ⟨⟨u,hu,Nat.le_max_left u t⟩,?_⟩
      intro q hq
      obtain ⟨v,hv,le⟩ := ht.all q hq
      exact ⟨v,hv,le.trans (Nat.le_max_right u t)⟩
    refine ⟨max u t,all,?_⟩
    rcases Nat.le_total t u with le | le
    · rw [Nat.max_eq_left le]
      exact .inr ⟨p,List.mem_cons_self,hu⟩
    · rw [Nat.max_eq_right le]
      exact ht.reached.imp_right fun ⟨q,hq,ends⟩ => ⟨q,List.mem_cons_of_mem p hq,ends⟩

theorem stop_le_iff {ts : List Task} {b : Nat} : stop ts ≤ b ↔ ∀ t ∈ ts, stopOf t ≤ b := foldl_max_le_iff

theorem stopOf_le_stop {ts : List Task} {t : Task} (h : t ∈ ts) : stopOf t ≤ stop ts := le_foldl_max h

theorem stop_reached (ts : List Task) : stop ts = 0 ∨ ∃ t ∈ ts, stopOf t = stop ts :=
  foldl_max_reached ts stopOf

namespace Execution
variable (x : Execution cancel tasks)

theorem timed : ∀ t ∈ x.final.tasks, t.Follows cancel ∧ t.Timed cancel :=
  forall_tasks_after (P := fun t => t.Follows cancel ∧ t.Timed cancel)
    (fun s ties => ⟨Task.follows_begin s ties,Task.timed_begin s ties⟩)
    (fun _ h => ⟨h.1.advance,h.2.advance h.1⟩) x.order

theorem task_stopsAt {t : Task} (ht : t ∈ x.final.tasks) : t.schedule.StopsAt cancel (stopOf t) :=
  (x.timed t ht).2.stopsAt (x.timed t ht).1 (x.ended t ht)

theorem planned_of_task {t : Task} (ht : t ∈ x.final.tasks) : (t.schedule, t.ties) ∈ tasks :=
  (after_consistent x.order).planned ht

theorem task_of_planned {p : Schedule × Ties} (hp : p ∈ tasks) :
    ∃ t ∈ x.final.tasks, t.schedule = p.1 := by
  have consistent : x.final.Consistent tasks := after_consistent x.order
  obtain ⟨t,ht,rfl⟩ := List.mem_map.mp (consistent.plans.symm ▸ hp)
  exact ⟨t,ht,rfl⟩

theorem stop_le {c : Nat} (hc : cancel = some c) : x.report.stop ≤ c :=
  stop_le_iff.mpr fun _ ht => (x.task_stopsAt ht).le c hc

theorem latestEnd (x : Execution none tasks) : LatestEnd tasks x.report.stop := by
  have ends : ∀ t ∈ x.final.tasks, t.schedule.EndsAt (stopOf t) := by
    intro t ht
    exact (x.task_stopsAt ht).own nofun
  refine ⟨?_,?_⟩
  · intro p hp
    obtain ⟨t,ht,same⟩ := x.task_of_planned hp
    exact ⟨stopOf t,same ▸ ends t ht,stopOf_le_stop ht⟩
  · refine (stop_reached x.final.tasks).imp_right ?_
    rintro ⟨t,ht,reached⟩
    have last := ends t ht
    rw [reached] at last
    exact ⟨_,x.planned_of_task ht,last⟩

theorem stop_eq_of_never {c : Nat} (x : Execution (some c) tasks) {p : Schedule × Ties}
    (planned : p ∈ tasks) (never : ∀ u, p.1.EndsAt u → c ≤ u) : x.report.stop = c := by
  obtain ⟨t,ht,same⟩ := x.task_of_planned planned
  have late : stopOf t = c := (x.task_stopsAt ht).eq_of_never (same ▸ never)
  have reached : stopOf t ≤ x.report.stop := stopOf_le_stop ht
  rw [late] at reached
  exact Nat.le_antisymm (x.stop_le rfl) reached

theorem stop_eq_min {c latest : Nat} (x : Execution (some c) tasks) (ends : LatestEnd tasks latest) :
    x.report.stop = min latest c := by
  apply Nat.le_antisymm
  · refine stop_le_iff.mpr fun t ht => ?_
    obtain ⟨u,hu,le⟩ := ends.all _ (x.planned_of_task ht)
    have time := (x.task_stopsAt ht).eq_min hu
    omega
  · rcases ends.reached with rfl | ⟨p,hp,hlatest⟩
    · rw [Nat.zero_min]
      exact Nat.zero_le _
    · obtain ⟨t,ht,same⟩ := x.task_of_planned hp
      have time : stopOf t = min latest c := (x.task_stopsAt ht).eq_min (same ▸ hlatest)
      exact time ▸ stopOf_le_stop ht

theorem stopsAt : StopsAt cancel tasks x.report.stop := by
  cases cancel with
  | none => exact .finished x.latestEnd nofun
  | some c =>
    by_cases never : ∃ p ∈ tasks, p.1.isSingle = false ∧ ∀ u, p.1.EndsAt u → c ≤ u
    · obtain ⟨p,planned,periodic,never⟩ := never
      rw [x.stop_eq_of_never planned never]
      exact .cancelled rfl planned periodic never
    · have before : ∀ p ∈ tasks, p.1.isSingle = false → ∃ u, p.1.EndsAt u ∧ u < c := by
        intro p planned periodic
        by_contra none
        refine never ⟨p,planned,periodic,fun u ends => ?_⟩
        exact Nat.not_lt.mp fun lt => none ⟨u,ends,lt⟩
      have ends : ∀ p ∈ tasks, ∃ u, p.1.EndsAt u := by
        intro p planned
        cases hs : p.1.isSingle with
        | true => exact ⟨_,Schedule.endsAt_of_single hs⟩
        | false =>
          obtain ⟨u,hu,_⟩ := before p planned hs
          exact ⟨u,hu⟩
      obtain ⟨latest,hlatest⟩ := exists_latestEnd ends
      rw [x.stop_eq_min hlatest]
      exact .finished hlatest fun _ hc => Option.some.inj hc ▸ before

end Execution

end Agenda

/-! ## Whether there is an end -/

/-- At most so many steps are left to a task that has no more than so many runs after its first. -/
def Task.stepsWithin (rounds : Nat) (t : Task) : Nat :=
  match t.stage with
  | .idle _ _ => 2 * (rounds - t.runs.length) + 2
  | .busy _ _ => if t.schedule.isSingle then 1 else 2 * (rounds - t.runs.length) + 1
  | .ended _ _ => 0

theorem Task.Follows.stepsWithin_advance {t : Task} {rounds : Nat} (h : t.Follows none)
    (few : t.schedule.run? none .work (rounds + 1) = none) (going : ¬ t.IsOver) :
    (t.advance none).1.stepsWithin rounds < t.stepsWithin rounds := by
  cases hs : t.stage with
  | idle since due =>
    have hstage := h.stage
    rw [hs] at hstage
    simp [Task.advance, hs, stepsWithin, inTime, hstage.1]
  | busy r due =>
    have follows := h.advance
    simp only [Task.advance, hs] at follows ⊢
    cases last : t.schedule.isLast r with
    | true =>
      obtain ⟨ending,after⟩ := afterRun_of_last last due
      simp only [after, stepsWithin, hs]
      split <;> omega
    | false =>
      have hstage := follows.stage
      rw [afterRun_of_not_last last] at hstage ⊢
      obtain ⟨periodic,hslot⟩ := hstage
      -- Another run is to come, so this was not yet the last of the rounds.
      have slot : t.schedule.slot? none t.ties (t.runs.length + 1) = some ⟨due, max r.stop due⟩ := hslot
      have next := Schedule.run?_eq_some_iff.mpr ⟨_,slot,rfl⟩
      have more : t.runs.length < rounds := by
        by_contra le
        have found := (Schedule.run?_iff_of_early (by simp)).mp next
        rw [Schedule.run?_none_of_run?_none few (by omega)] at found
        cases found
      simp only [stepsWithin, hs, periodic, List.length_cons, Bool.false_eq_true, if_false]
      omega
  | ended time ending => exact absurd ⟨time,ending,hs⟩ going

namespace Agenda
variable {cancel : Option Nat} {tasks : List (Schedule × Ties)}

theorem run_isSome_of_few {rounds : Nat}
    (few : ∀ p ∈ tasks, p.1.run? none .work (rounds + 1) = none) : (run rounds none tasks).isSome := by
  refine run_isSome_of_rank rounds (Task.stepsWithin rounds) ?_ ?_
  · intro p _
    cases hs : p.1.isSingle <;> simp [Task.begin, Task.stepsWithin, steps, hs]
  · intro t follows planned going
    exact follows.stepsWithin_advance (few _ planned) going

theorem exists_rounds (ends : ∀ p ∈ tasks, ∃ t, p.1.EndsAt t) :
    ∃ rounds, ∀ p ∈ tasks, p.1.run? none .work (rounds + 1) = none := by
  induction tasks with
  | nil => exact ⟨0,by simp⟩
  | cons p tasks ih =>
    obtain ⟨⟨_,first⟩,rest⟩ := List.forall_mem_cons.mp ends
    obtain ⟨n,r,hr,last,_⟩ := Schedule.endsAt_iff_run?.mp first
    obtain ⟨rounds,few⟩ := ih rest
    refine ⟨max n rounds,List.forall_mem_cons.mpr ⟨?_,fun q hq => ?_⟩⟩
    · exact Schedule.run?_none_of_run?_none (Schedule.run?_succ_of_last hr last) (by omega)
    · exact Schedule.run?_none_of_run?_none (few q hq) (by omega)

theorem comes_to_end_iff : (∃ rounds, (run rounds cancel tasks).isSome) ↔
    cancel.isSome ∨ ∀ p ∈ tasks, ∃ t, p.1.EndsAt t := by
  cases cancel with
  | some c => exact ⟨fun _ => .inl rfl,fun _ => ⟨0,run_isSome 0 c tasks⟩⟩
  | none =>
    constructor
    · rintro ⟨rounds,ended⟩
      obtain ⟨r,hr⟩ := Option.isSome_iff_exists.mp ended
      obtain ⟨x,_⟩ := run_eq_some hr
      right
      intro p hp
      obtain ⟨u,hu,_⟩ := x.latestEnd.all p hp
      exact ⟨u,hu⟩
    · rintro (none | ends)
      · cases none
      · obtain ⟨rounds,few⟩ := exists_rounds ends
        exact ⟨rounds,run_isSome_of_few few⟩

/-! ## The report -/

/-- What the report of an agenda tells of its end: when this was, and that every run that its schedules
come to was over by then. -/
structure Concluded (cancel : Option Nat) (tasks : List (Schedule × Ties)) (report : Report) : Prop where
  stop : ∀ t, report.stop = t ↔ StopsAt cancel tasks t
  bound : ∀ c, cancel = some c → report.stop ≤ c
  runs : ∀ (i : Nat) (s : Schedule) (ties : Ties), tasks[i]? = some (s, ties) →
    ∃ runs, report.runs[i]? = some (s.name, runs) ∧ s.Shows cancel ties runs ∧
      ∀ r ∈ runs, r.start ≤ r.stop ∧ r.stop ≤ report.stop ∧ ∀ c, cancel = some c → r.start ≤ c
  /-- A schedule that runs once has started once, or not at all if the first instant was the last. -/
  single : ∀ (i : Nat) (s : Schedule) (ties : Ties), tasks[i]? = some (s, ties) → s.isSingle = true →
    ∃ r, report.runs[i]? = some (s.name, [r]) ∧ r.start = 0 ∧ (cancel ≠ some 0 → r.started = true)

theorem Execution.concluded (x : Execution cancel tasks) : Concluded cancel tasks x.report := by
  have runs : ∀ (i : Nat) (s : Schedule) (ties : Ties), tasks[i]? = some (s, ties) →
      ∃ t ∈ x.final.tasks, t.schedule = s ∧ x.report.runs[i]? = some (s.name, t.runs.reverse) ∧
        s.Course cancel ties t.runs.reverse := by
    intro i s ties planned
    obtain ⟨t,ht,rfl,rfl,follows⟩ := task_after cancel planned x.order
    have hmem : t ∈ x.final.tasks := List.mem_of_getElem? ht
    refine ⟨t,hmem,rfl,?_,follows.course (x.ended t hmem)⟩
    simp [Execution.report, Agenda.report, Execution.final, ht]
  refine ⟨?_,fun c => x.stop_le,?_,?_⟩
  · intro t
    constructor
    · rintro rfl
      exact x.stopsAt
    · exact x.stopsAt.unique
  · intro i s ties planned
    obtain ⟨t,ht,_,found,course⟩ := runs i s ties planned
    refine ⟨_,found,course.shows,?_⟩
    intro r hr
    obtain ⟨n,hn⟩ := course.mem_iff.mp hr
    obtain ⟨p,hp,rfl⟩ := Schedule.run?_eq_some_iff.mp hn
    have forward := Schedule.start_le_stop_of_slot? hp
    have past := (x.timed t ht).2.past _ (List.mem_reverse.mp hr)
    obtain ⟨time,ending,hs⟩ := x.ended t ht
    have reached : stopOf t = t.stage.since := by rw [stopOf, hs, Stage.since]
    have early := (reached ▸ past).trans (stopOf_le_stop ht)
    rw [Schedule.run_start]
    exact ⟨forward,early,fun c hc => (forward.trans early).trans (x.stop_le hc)⟩
  · intro i s ties planned single
    obtain ⟨t,_,_,found,course⟩ := runs i s ties planned
    obtain ⟨r,hruns,start,started⟩ := course.of_single single
    exact ⟨r,hruns ▸ found,start,started⟩

/-- An agenda stops at the cancellation, if a periodic schedule would go on until then; otherwise with
the last end of a schedule that runs once, cut at its limit, or crash of any other, or at the cancellation if
that comes first. Every run that its schedules come to is over by then. It does come to its end when it is
cancelled or when all its schedules do of themselves, as those that run once do, and otherwise it does
not. -/
theorem end_exact (cancel : Option Nat) (tasks : List (Schedule × Ties)) :
    (∀ x : Execution cancel tasks, Concluded cancel tasks x.report) ∧
    (∀ (rounds : Nat) (r : Report), run rounds cancel tasks = some r → Concluded cancel tasks r) ∧
    ((∃ rounds, (run rounds cancel tasks).isSome) ↔
      cancel.isSome ∨ ∀ p ∈ tasks, ∃ t, p.1.EndsAt t) ∧
    (∀ p ∈ tasks, p.1.isSingle = true → p.1.EndsAt ((p.1.behaviour 0).within p.1.limit).1) ∧
    ((cancel.isSome ∨ ∀ p ∈ tasks, p.1.isSingle = true) →
      ∀ rounds, (run rounds cancel tasks).isSome) := by
  refine ⟨Execution.concluded,?_,comes_to_end_iff,fun p _ => Schedule.endsAt_of_single,?_⟩
  · intro rounds r hr
    obtain ⟨x,rfl⟩ := run_eq_some hr
    exact x.concluded
  · rintro (cancelled | singles) rounds
    · obtain ⟨c,rfl⟩ := Option.isSome_iff_exists.mp cancelled
      exact run_isSome rounds c tasks
    · exact run_isSome_of_singles rounds cancel singles

def crashAndTimeout : List (Schedule × Ties) :=
  [(⟨"faulty", "network", 7, 0,
      fun n => if n < 2 then .work ⟨3, .ok .healthy, []⟩ else .crash 1 "out of range"⟩, .work),
   (⟨"slow", "network", 0, 20, fun _ => .work ⟨100, .ok .healthy, []⟩⟩, .work)]

theorem end_exact_crashAndTimeout : StopsAt none crashAndTimeout 20 ∧
    StopsAt (some 17) crashAndTimeout 17 ∧ StopsAt (some 12) crashAndTimeout 12 := by
  have stops (cancel : Option Nat) (t : Nat)
      (came : (run 2 cancel crashAndTimeout).map Report.stop = some t) :
      StopsAt cancel crashAndTimeout t := by
    obtain ⟨r,hr,rfl⟩ := Option.map_eq_some_iff.mp came
    obtain ⟨_,reports,_⟩ := end_exact cancel crashAndTimeout
    exact ((reports 2 r hr).stop r.stop).mp rfl
  exact ⟨stops none 20 (by rfl),stops (some 17) 17 (by rfl),stops (some 12) 12 (by rfl)⟩

end Agenda
end HealthProbe
