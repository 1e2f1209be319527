import HealthProbe.Proofs.Agenda.Slots

/-! # The progress of a task

Every step of a task keeps it on the course of its schedule: the runs that have ended are the first ones
of the course, in order, and what the task is about to do is the next slot. Under a cancellation each
step also brings the task nearer to its end.
-/
namespace HealthProbe

def Schedule.StandsAt (s : Schedule) (cancel : Option Nat) (ties : Ties) (n : Nat) : Stage → Prop
  | .idle since due => s.isSingle = false ∧
      s.slot? cancel ties n =
        if inTime cancel (ties.tick n) (max since due) then some ⟨due, max since due⟩ else none
  | .busy r due => ∃ p, s.slot? cancel ties n = some p ∧ r = s.run cancel ties n p.start ∧
      (s.isSingle = false → due = Schedule.nextDue s.interval p.due p.start)
  | .ended _ _ => s.slot? cancel ties n = none

namespace Task

structure Follows (cancel : Option Nat) (t : Task) : Prop where
  runs : ∀ k < t.runs.length, t.runs.reverse[k]? = t.schedule.run? cancel t.ties k
  stage : t.schedule.StandsAt cancel t.ties t.runs.length t.stage

def counted (t : Task) : List TimedEvent :=
  t.runs.reverse.flatMap fun r => (runTrace t.schedule r).events

def IsOver (t : Task) : Prop := ∃ time ending, t.stage = .ended time ending

variable {cancel : Option Nat} {t : Task}

theorem next?_eq_none_iff : t.next? cancel = none ↔ t.IsOver := by
  unfold next? IsOver
  cases t.stage <;> simp

@[simp] theorem advance_schedule : (t.advance cancel).1.schedule = t.schedule := by
  unfold advance
  split
  · dsimp only
    split <;> rfl
  · rfl
  · rfl

@[simp] theorem advance_ties : (t.advance cancel).1.ties = t.ties := by
  unfold advance
  split
  · dsimp only
    split <;> rfl
  · rfl
  · rfl

theorem counted_advance : (t.advance cancel).1.counted = t.counted ++ (t.advance cancel).2.events := by
  unfold advance
  split
  · dsimp only
    split <;> simp [counted]
  · simp [counted]
  · simp [Trace.empty]

theorem follows_begin (s : Schedule) (ties : Ties) : (begin cancel s ties).Follows cancel := by
  refine ⟨by simp [begin],?_⟩
  cases hs : s.isSingle with
  | true =>
    simp only [begin, hs, if_true, Schedule.StandsAt, List.length_nil]
    exact ⟨⟨0,0⟩,by simp [Schedule.slot?, hs],rfl,by simp⟩
  | false => simp [begin, hs, Schedule.StandsAt, Schedule.slot?]

/-- After a run the task stands where the slot after the one of the run puts it. -/
theorem standsAt_afterRun {s : Schedule} {ties : Ties} {n due : Nat} {p : Slot}
    (hp : s.slot? cancel ties n = some p)
    (hdue : s.isSingle = false → due = Schedule.nextDue s.interval p.due p.start) :
    s.StandsAt cancel ties (n + 1) (afterRun s (s.run cancel ties n p.start) due) := by
  have hnext := Schedule.slot?_succ hp
  unfold Schedule.nextSlot? at hnext
  unfold afterRun
  split
  · rename_i words hc
    simpa [Schedule.StandsAt, hc, Close.isCrash] using hnext
  · rename_i hc
    have whole : (s.run cancel ties n p.start).close.isCrash = false := by
      unfold Close.isCrash
      split
      · exact absurd (by assumption) (hc _)
      · rfl
    cases hs : s.isSingle with
    | true => simpa [Schedule.StandsAt, hs] using hnext
    | false =>
      have hd := hdue hs
      subst hd
      simpa [Schedule.StandsAt, hs, whole] using hnext

theorem Follows.advance (h : t.Follows cancel) : (t.advance cancel).1.Follows cancel := by
  obtain ⟨hruns,hstage⟩ := h
  cases hs : t.stage with
  | idle since due =>
    rw [hs] at hstage
    obtain ⟨hsingle,hslot⟩ := hstage
    simp only [Task.advance, hs]
    split
    · rename_i hin
      rw [if_pos hin] at hslot
      exact ⟨hruns,_,hslot,rfl,fun _ => rfl⟩
    · rename_i hin
      rw [if_neg hin] at hslot
      exact ⟨hruns,hslot⟩
  | busy r due =>
    rw [hs] at hstage
    obtain ⟨p,hp,hr,hdue⟩ := hstage
    subst hr
    simp only [Task.advance, hs]
    refine ⟨?_,standsAt_afterRun hp hdue⟩
    intro k hk
    rcases Nat.lt_succ_iff_lt_or_eq.mp hk with hlt | rfl
    · rw [List.reverse_cons, List.getElem?_append_left (by simpa using hlt)]
      exact hruns k hlt
    · simp [Schedule.run?, hp]
  | ended time ending =>
    simpa [Task.advance, hs] using Follows.mk hruns (hs ▸ hstage)

theorem Follows.course (h : t.Follows cancel) (ended : t.IsOver) :
    t.schedule.Course cancel t.ties t.runs.reverse := by
  obtain ⟨time,ending,hs⟩ := ended
  have hnone := h.stage
  rw [hs] at hnone
  intro k
  rcases Nat.lt_or_ge k t.runs.length with hlt | hge
  · exact h.runs k hlt
  · rw [Schedule.run?_none_of_le hnone hge]
    simpa using hge

end Task

/-! ## Steps that are left -/

/-- At most so many steps are left under a cancellation at `c` when the next tick is due at `due`. -/
def Schedule.stepsFrom (s : Schedule) (c due : Nat) : Nat :=
  if due ≤ c then 2 * ((c - due) / s.interval + 1) + 1 else 1

theorem Schedule.stepsFrom_nextDue {s : Schedule} {c due : Nat} (hs : s.isSingle = false)
    (le : due ≤ c) (now : Nat) : s.stepsFrom c (nextDue s.interval due now) + 2 ≤ s.stepsFrom c due := by
  have pos : 0 < s.interval := by
    simp only [isSingle, beq_eq_false_iff_ne] at hs
    omega
  have hadd := add_interval_le_nextDue s.interval due now
  unfold stepsFrom
  rw [if_pos le]
  split
  · rename_i hc
    have hdiv : (c - nextDue s.interval due now) / s.interval ≤ (c - due - s.interval) / s.interval :=
      Nat.div_le_div_right (by omega)
    have hsub : (c - due) / s.interval = (c - due - s.interval) / s.interval + 1 :=
      Nat.div_eq_sub_div pos (by omega)
    omega
  · generalize (c - due) / s.interval = rounds
    omega

namespace Task
variable {t : Task} {c : Nat}

def stepsLeft (c : Nat) (t : Task) : Nat :=
  match t.stage with
  | .idle _ due => t.schedule.stepsFrom c due
  | .busy _ due => if t.schedule.isSingle then 1 else t.schedule.stepsFrom c due + 1
  | .ended _ _ => 0

theorem stepsLeft_begin (s : Schedule) (ties : Ties) (rounds : Nat) :
    (begin (some c) s ties).stepsLeft c = Agenda.steps (some c) rounds s := by
  cases hs : s.isSingle <;> simp [stepsLeft, begin, Agenda.steps, Schedule.stepsFrom, hs]

theorem stepsLeft_afterRun (s : Schedule) (ties : Ties) (runs : List Run) (r : Run) (due : Nat) :
    stepsLeft c ⟨s, ties, runs, afterRun s r due⟩ <
      stepsLeft c ⟨s, ties, runs, .busy r due⟩ := by
  unfold afterRun
  split
  · simp only [stepsLeft]
    split <;> omega
  · cases hs : s.isSingle <;> simp [stepsLeft, hs]

theorem Follows.stepsLeft_advance (h : t.Follows (some c)) (going : ¬ t.IsOver) :
    (t.advance (some c)).1.stepsLeft c < t.stepsLeft c := by
  cases hs : t.stage with
  | idle since due =>
    have hstage := h.stage
    rw [hs] at hstage
    simp only [Task.advance, hs]
    split
    · rename_i hin
      have le : due ≤ c := by
        have := Schedule.inTime_some_iff.mp hin
        omega
      have hlt := Schedule.stepsFrom_nextDue hstage.1 le (max since due)
      simp only [stepsLeft, hs, hstage.1, Bool.false_eq_true, ↓reduceIte]
      omega
    · simp only [stepsLeft, hs, Schedule.stepsFrom]
      split <;> omega
  | busy r due =>
    have hlt := stepsLeft_afterRun (c := c) t.schedule t.ties t.runs r due
    simpa only [Task.advance, stepsLeft, hs] using hlt
  | ended time ending => exact absurd ⟨time,ending,hs⟩ going

end Task
end HealthProbe
