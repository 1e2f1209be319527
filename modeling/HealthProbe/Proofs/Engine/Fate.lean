import HealthProbe.Engine.Task

/-! # What becomes of a run

A run comes to an outcome, or it crashes and leaves its last words. A limit that it exceeds cuts it short,
and the outcome is then a timeout. Passes and schedules both limit runs, each in a form of its own, and come
to the same.
-/
namespace HealthProbe

abbrev Fate := Except String Outcome

namespace Behaviour

/-- How long a run takes under a limit, and what becomes of it. Zero is no limit. -/
def within (limit : Nat) : Behaviour → Nat × Fate
  | work w =>
    if limit = 0 ∨ w.duration ≤ limit then (w.duration, .ok w.outcome)
    else (limit, .ok (.error (.timeout (Span.ofMillis limit))))
  | crash after words =>
    if limit = 0 ∨ after ≤ limit then (after, .error words)
    else (limit, .ok (.error (.timeout (Span.ofMillis limit))))

def fate : Behaviour → Fate
  | work w => .ok w.outcome
  | crash _ words => .error words

end Behaviour

theorem Work.fits_iff {limit duration : Nat} :
    Work.fits limit duration = true ↔ limit = 0 ∨ duration ≤ limit := by
  simp [Work.fits]

theorem Work.fits_eq_false_iff {limit duration : Nat} :
    Work.fits limit duration = false ↔ 0 < limit ∧ limit < duration := by
  rw [← Bool.not_eq_true, fits_iff]
  omega

namespace Behaviour
variable {limit : Nat} {b : Behaviour}

theorem within_of_fits (h : Work.fits limit b.duration = true) : b.within limit = (b.duration, b.fate) := by
  rw [Work.fits_iff] at h
  cases b <;> exact if_pos h

theorem within_of_over (h : Work.fits limit b.duration = false) :
    b.within limit = (limit, .ok (.error (.timeout (Span.ofMillis limit)))) := by
  have exceeds : ¬ (limit = 0 ∨ b.duration ≤ limit) := by
    rw [← Work.fits_iff, h]
    exact Bool.false_ne_true
  cases b <;> exact if_neg exceeds

/-- A limit leaves the fate of a run as it is, or makes a timeout of it. -/
theorem within_own_or_timeout (limit : Nat) (b : Behaviour) :
    (b.within limit).2 = b.fate ∨ (b.within limit).2 = .ok (.error (.timeout (Span.ofMillis limit))) := by
  cases fits : Work.fits limit b.duration with
  | true => exact .inl (congrArg Prod.snd (within_of_fits fits))
  | false => exact .inr (congrArg Prod.snd (within_of_over fits))

/-- The behaviour that shows under a limit tells how long it takes and what becomes of it. -/
theorem within_eq (limit : Nat) (b : Behaviour) :
    b.within limit = ((b.under limit).duration, (b.under limit).fate) := by
  cases fits : Work.fits limit b.duration with
  | true =>
    have shown : b.under limit = b := by
      cases b with
      | work w => exact congrArg work (if_pos fits)
      | crash after words => exact if_pos fits
    rw [within_of_fits fits, shown]
  | false =>
    rw [within_of_over fits]
    have exceeds : ¬ Work.fits limit b.duration = true := Bool.eq_false_iff.mp fits
    cases b with
    | work w =>
      have shown : w.under limit = ⟨limit, Work.timedOut limit, w.notesUntil limit⟩ := if_neg exceeds
      rw [under, shown]
      rfl
    | crash after words =>
      have shown : (crash after words).under limit = work ⟨limit, Work.timedOut limit, []⟩ :=
        if_neg exceeds
      rw [shown]
      rfl

end Behaviour

/-! ## How a schedule ends its runs -/

def Close.isCrash : Close → Bool
  | .crashed _ => true
  | _ => false

def Behaviour.close : Behaviour → Close
  | work w => .finished w.outcome
  | crash _ words => .crashed words

namespace Schedule
variable {limit : Nat} {b : Behaviour}

theorem closeOf_of_fits (h : Work.fits limit b.duration = true) :
    closeOf limit b = (b.duration, b.close) := by
  cases b <;> exact if_pos h

theorem closeOf_of_over (h : Work.fits limit b.duration = false) :
    closeOf limit b = (limit, .expired limit) := by
  cases b <;> exact if_neg (Bool.not_eq_true _ ▸ h)

/-- A schedule that is not cancelled lets a run go on as long as a pass does, and it comes to the same. -/
theorem closeOf_within (limit : Nat) (b : Behaviour) :
    (closeOf limit b).1 = (b.within limit).1 ∧
      (closeOf limit b).2.outcome? = (b.within limit).2.toOption ∧
      (closeOf limit b).2.isCrash = !(b.within limit).2.isOk := by
  cases fits : Work.fits limit b.duration with
  | true =>
    rw [closeOf_of_fits fits, Behaviour.within_of_fits fits]
    cases b <;> exact ⟨rfl,rfl,rfl⟩
  | false =>
    rw [closeOf_of_over fits, Behaviour.within_of_over fits]
    exact ⟨rfl,rfl,rfl⟩

end Schedule
end HealthProbe
