import HealthProbe.Engine.Agenda
import HealthProbe.Proofs.Engine.Fate

/-! # Slots of a schedule

The runs of a schedule, described without any agenda. Each run has a slot: the instant at which its
tick was due and the instant at which it starts. The slot of the next run depends on the schedule alone,
on the cancellation, and on the ties. A task goes through these runs in order and is over when there is
no further slot.
-/
namespace HealthProbe

structure Slot where
  due : Nat
  start : Nat
  deriving DecidableEq, Repr

namespace Schedule

def lasts (s : Schedule) (n : Nat) : Nat := (closeOf s.limit (s.behaviour n)).1

/-- What the run with a number comes to if no cancellation cuts it. A crash comes to nothing. -/
def outcome? (s : Schedule) (n : Nat) : Option Outcome :=
  (closeOf s.limit (s.behaviour n)).2.outcome?

def nextSlot? (s : Schedule) (cancel : Option Nat) (ties : Ties) (n : Nat) (p : Slot) :
    Option Slot :=
  let r := s.run cancel ties n p.start
  if s.isSingle || r.close.isCrash then none
  else
    let due := nextDue s.interval p.due p.start
    if inTime cancel (ties.tick (n + 1)) (max r.stop due) then some ⟨due, max r.stop due⟩ else none

def slot? (s : Schedule) (cancel : Option Nat) (ties : Ties) : Nat → Option Slot
  | 0 => if s.isSingle || inTime cancel (ties.tick 0) 0 then some ⟨0, 0⟩ else none
  | n + 1 => (s.slot? cancel ties n).bind (s.nextSlot? cancel ties n)

def run? (s : Schedule) (cancel : Option Nat) (ties : Ties) (n : Nat) : Option Run :=
  (s.slot? cancel ties n).map fun p => s.run cancel ties n p.start

def Course (s : Schedule) (cancel : Option Nat) (ties : Ties) (runs : List Run) : Prop :=
  ∀ k, runs[k]? = s.run? cancel ties k

theorem slot?_succ {s : Schedule} {cancel : Option Nat} {ties : Ties} {n : Nat} {p : Slot}
    (h : s.slot? cancel ties n = some p) :
    s.slot? cancel ties (n + 1) = s.nextSlot? cancel ties n p := by
  simp [slot?, h]

theorem slot?_none_of_le {s : Schedule} {cancel : Option Nat} {ties : Ties} {n m : Nat}
    (h : s.slot? cancel ties n = none) (le : n ≤ m) : s.slot? cancel ties m = none := by
  induction le with
  | refl => exact h
  | step _ ih => simp [slot?, ih]

theorem run?_none_of_le {s : Schedule} {cancel : Option Nat} {ties : Ties} {n m : Nat}
    (h : s.slot? cancel ties n = none) (le : n ≤ m) : s.run? cancel ties m = none := by
  simp [run?, slot?_none_of_le h le]

theorem Course.unique {s : Schedule} {cancel : Option Nat} {ties : Ties} {as bs : List Run}
    (ha : s.Course cancel ties as) (hb : s.Course cancel ties bs) : as = bs :=
  List.ext_getElem? fun k => (ha k).trans (hb k).symm

/-! ## A run and the cancellation -/

section Run
variable {s : Schedule} {cancel : Option Nat} {ties : Ties} {n start : Nat}

@[simp] theorem inTime_none (tie : Bool) (t : Nat) : inTime none tie t = true := rfl

theorem inTime_some_iff {c t : Nat} {tie : Bool} :
    inTime (some c) tie t = true ↔ t < c ∨ t = c ∧ tie = true := by
  simp [inTime]

theorem run_of_inTime (h : inTime cancel (ties.run n) (start + s.lasts n) = true) :
    (s.run cancel ties n start).stop = start + s.lasts n ∧
      (s.run cancel ties n start).close = (closeOf s.limit (s.behaviour n)).2 := by
  simp only [lasts] at h
  simp [run, lasts, h]

theorem run_of_late {c : Nat} (h : inTime (some c) (ties.run n) (start + s.lasts n) = false) :
    (s.run (some c) ties n start).stop = c ∧ (s.run (some c) ties n start).close = .cancelled := by
  simp only [lasts] at h
  simp [run, h]

/-- The outcome of a run counts if it is there before the cancellation and does not say itself that the
run was cancelled. -/
theorem counted?_run {o : Outcome} :
    (s.run cancel ties n start).close.counted? = some o ↔
      inTime cancel (ties.run n) (start + s.lasts n) = true ∧ s.outcome? n = some o ∧
        o ≠ .error .cancelled := by
  cases h : inTime cancel (ties.run n) (start + s.lasts n) with
  | false =>
    cases cancel with
    | none => simp at h
    | some c => simp [(run_of_late h).2, Close.counted?, Close.outcome?]
  | true =>
    rw [(run_of_inTime h).2]
    simp only [outcome?, Close.counted?]
    split <;> grind

end Run

/-! ## Where slots lie -/

section Slots
variable {s : Schedule} {cancel : Option Nat} {ties : Ties} {n : Nat} {p q : Slot}

theorem nextSlot?_eq_some_iff :
    s.nextSlot? cancel ties n p = some q ↔
      s.isSingle = false ∧ (s.run cancel ties n p.start).close.isCrash = false ∧
        q.due = nextDue s.interval p.due p.start ∧
        q.start = max (s.run cancel ties n p.start).stop q.due ∧
        inTime cancel (ties.tick (n + 1)) q.start = true := by
  rcases q with ⟨due, start⟩
  simp only [nextSlot?]
  grind

theorem slot?_succ_eq_some (h : s.slot? cancel ties (n + 1) = some q) :
    ∃ p, s.slot? cancel ties n = some p ∧ s.nextSlot? cancel ties n p = some q :=
  Option.bind_eq_some_iff.mp h

theorem add_interval_le_nextDue (interval due now : Nat) :
    due + interval ≤ nextDue interval due now := by
  unfold nextDue
  split <;> omega

/-- No run starts before its tick is due, and ticks are due at least an interval apart. -/
theorem slot?_bounds (h : s.slot? cancel ties n = some p) :
    n * s.interval ≤ p.due ∧ p.due ≤ p.start := by
  induction n generalizing p with
  | zero =>
    simp only [slot?] at h
    split at h
    · cases h
      simp
    · cases h
  | succ n ih =>
    obtain ⟨q,hq,hp⟩ := slot?_succ_eq_some h
    obtain ⟨_,_,hdue,hstart,_⟩ := nextSlot?_eq_some_iff.mp hp
    obtain ⟨hmul,hle⟩ := ih hq
    have hadd := add_interval_le_nextDue s.interval q.due q.start
    rw [Nat.succ_mul]
    omega

/-- A run that leaves time for another slot before the cancellation is not cut by it. -/
theorem nextSlot?_iff_of_lt {c : Nat} {ties' : Ties} (lt : q.start < c) :
    s.nextSlot? (some c) ties n p = some q ↔ s.nextSlot? none ties' n p = some q := by
  have whole : inTime none (ties'.run n) (p.start + s.lasts n) = true := inTime_none ..
  have hn := run_of_inTime whole
  have htick : inTime (some c) (ties.tick (n + 1)) q.start = true := inTime_some_iff.mpr (.inl lt)
  rw [nextSlot?_eq_some_iff, nextSlot?_eq_some_iff, hn.1, hn.2]
  cases h : inTime (some c) (ties.run n) (p.start + s.lasts n) with
  | true => simp [(run_of_inTime h).1, (run_of_inTime h).2, htick]
  | false =>
    -- Cut or not, such a run ends no earlier than the cancellation, too late for the slot.
    have hc := run_of_late h
    have hlate : ¬ p.start + s.lasts n < c := fun hlt => by
      simp [inTime_some_iff.mpr (.inl hlt)] at h
    rw [hc.1, hc.2]
    constructor
    · rintro ⟨_,_,_,hstart,_⟩
      omega
    · rintro ⟨_,_,_,hstart,_⟩
      omega

theorem start_lt_of_nextSlot? {c : Nat} (h : s.nextSlot? none ties n p = some q)
    (lt : q.start < c) : p.start < c := by
  obtain ⟨_,_,_,hstart,_⟩ := nextSlot?_eq_some_iff.mp h
  have whole : inTime none (ties.run n) (p.start + s.lasts n) = true := inTime_none ..
  rw [(run_of_inTime whole).1] at hstart
  omega

/-- Before the cancellation a schedule runs as if there were none. -/
theorem slot?_iff_of_lt {c : Nat} {ties' : Ties} (lt : p.start < c) :
    s.slot? (some c) ties n = some p ↔ s.slot? none ties' n = some p := by
  induction n generalizing p with
  | zero =>
    have pos : 0 < c := by omega
    simp [slot?, inTime, pos]
  | succ n ih =>
    constructor
    · intro h
      obtain ⟨q,hq,hp⟩ := slot?_succ_eq_some h
      have hp' : s.nextSlot? none ties' n q = some p := (nextSlot?_iff_of_lt lt).mp hp
      rw [slot?_succ ((ih (start_lt_of_nextSlot? hp' lt)).mp hq)]
      exact hp'
    · intro h
      obtain ⟨q,hq,hp⟩ := slot?_succ_eq_some h
      rw [slot?_succ ((ih (start_lt_of_nextSlot? hp lt)).mpr hq)]
      exact (nextSlot?_iff_of_lt lt).mpr hp

end Slots

end Schedule
end HealthProbe
