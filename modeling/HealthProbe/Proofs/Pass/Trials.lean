import HealthProbe.Engine.Pass
import HealthProbe.Proofs.Engine.Fate

/-! # What a trial comes to

A checker is tried until one of its attempts gives a verdict or crashes, or the last that it is allowed has
failed. Which attempt that is depends on what becomes of them alone; when it begins, on the time that the
attempts before it took and on the pauses.
-/
namespace HealthProbe

def Checker.attempt (c : Checker) (limit n : Nat) : Nat × Fate := (c.behaviour n).within limit

def Checker.fate (c : Checker) (limit n : Nat) : Fate := (c.attempt limit n).2

/-- A limit takes verdicts away and adds none. -/
theorem Checker.fate_eq_ok {c : Checker} {limit n : Nat} {v : Verdict}
    (h : c.fate limit n = .ok (.ok v)) : (c.behaviour n).fate = .ok (.ok v) := by
  rcases (c.behaviour n).within_own_or_timeout limit with own | timeout
  · exact own.symm.trans h
  · cases timeout.symm.trans h

namespace Retries
variable {r : Retries} {limit left made now start k : Nat} {c : Checker} {fates : Nat → Fate}

/-! ## One attempt -/

def attemptAt (limit : Nat) (c : Checker) (made now : Nat) : Attempt :=
  ⟨now, now + ((c.behaviour made).under limit).duration, !Work.fits limit (c.behaviour made).duration⟩

structure EndsWith (t : Trial) (v : Except String Verdict) (a : Attempt) : Prop where
  verdict : t.verdict = v
  stop : t.stop = a.stop
  attempts : t.attempts = [a]

def judged (r : Retries) : Outcome → Verdict
  | .ok v => v
  | .error e => failedVerdict r.attempts e

theorem fate_eq (limit : Nat) (c : Checker) (made : Nat) :
    c.fate limit made = ((c.behaviour made).under limit).fate :=
  congrArg Prod.snd ((c.behaviour made).within_eq limit)

/-- A trial is over with an attempt that does not fail, or has none after it. -/
theorem tryOn_of_final (r : Retries) (now : Nat)
    (final : left = 0 ∨ ∀ e, c.fate limit made ≠ .ok (.error e)) :
    EndsWith (r.tryOn limit c left made now) ((c.fate limit made).map r.judged)
      (attemptAt limit c made now) := by
  rw [fate_eq] at final ⊢
  unfold tryOn attemptAt
  cases shown : (c.behaviour made).under limit with
  | crash after words =>
    simp only [shown]
    exact ⟨rfl,rfl,rfl⟩
  | work w =>
    rw [shown] at final
    cases came : w.outcome with
    | ok v =>
      simp only [shown, Behaviour.fate, came]
      exact ⟨rfl,rfl,rfl⟩
    | error e =>
      rcases final with rfl | never
      · simp only [shown, Behaviour.fate, came]
        exact ⟨rfl,rfl,rfl⟩
      · exact absurd (congrArg Except.ok came) (never e)

/-- After an attempt that failed, and a pause, the trial goes on as if it began there. -/
theorem tryOn_succ_of_error (r : Retries) (left now : Nat) {e : CheckFailure}
    (h : c.fate limit made = .ok (.error e)) :
    ∃ rest, rest = r.tryOn limit c left (made + 1) ((attemptAt limit c made now).stop + r.pause) ∧
      (r.tryOn limit c (left + 1) made now).verdict = rest.verdict ∧
      (r.tryOn limit c (left + 1) made now).stop = rest.stop ∧
      (r.tryOn limit c (left + 1) made now).attempts = attemptAt limit c made now :: rest.attempts := by
  refine ⟨_,rfl,?_⟩
  rw [fate_eq] at h
  rw [tryOn]
  cases shown : (c.behaviour made).under limit with
  | crash after words =>
    rw [shown] at h
    cases h
  | work w =>
    rw [shown] at h
    have came : w.outcome = .error e := Except.ok.inj h
    simp only [attemptAt, shown, came, and_self]

/-! ## The last attempt -/

/-- The number of the last attempt, given what would become of every attempt. -/
structure Last (r : Retries) (fates : Nat → Fate) (k : Nat) : Prop where
  allowed : k < r.attempts
  failed : ∀ i, i < k → ∃ e, fates i = .ok (.error e)
  ends : k + 1 = r.attempts ∨ ∀ e, fates k ≠ .ok (.error e)

theorem Last.not_lt {k' : Nat} (h : r.Last fates k) (h' : r.Last fates k') : ¬ k < k' := by
  intro lt
  obtain ⟨e,failed⟩ := h'.failed k lt
  rcases h.ends with last | never
  · have allowed := h'.allowed
    omega
  · exact never e failed

theorem Last.unique {k' : Nat} (h : r.Last fates k) (h' : r.Last fates k') : k = k' := by
  have not_lt := h.not_lt h'
  have not_gt := h'.not_lt h
  omega

theorem Last.congr {r' : Retries} (h : r.Last fates k) (same : r'.attempts = r.attempts) :
    r'.Last fates k :=
  ⟨same ▸ h.allowed,h.failed,same ▸ h.ends⟩

theorem judged_congr {r' : Retries} (same : r'.attempts = r.attempts) : r'.judged = r.judged := by
  funext o
  cases o with
  | ok v => rfl
  | error e => rw [judged, judged, same]

def beginOf (r : Retries) (limit : Nat) (c : Checker) (start : Nat) : Nat → Nat
  | 0 => start
  | i + 1 => r.beginOf limit c start i + ((c.behaviour i).under limit).duration + r.pause

/-- A trial that went on after so many attempts and was over with attempt `k`. The first of all began at
`start`. -/
structure Tried (r : Retries) (limit : Nat) (c : Checker) (start made k : Nat) (t : Trial) : Prop where
  last : r.Last (c.fate limit) k
  verdict : t.verdict = (c.fate limit k).map r.judged
  attempts : t.attempts = (List.range' made (k + 1 - made)).map fun i =>
    attemptAt limit c i (r.beginOf limit c start i)
  stop : t.stop = (attemptAt limit c k (r.beginOf limit c start k)).stop

theorem tried_of_final (last : r.Last (c.fate limit) made)
    (final : left = 0 ∨ ∀ e, c.fate limit made ≠ .ok (.error e)) :
    r.Tried limit c start made made (r.tryOn limit c left made (r.beginOf limit c start made)) := by
  have ends := r.tryOn_of_final (r.beginOf limit c start made) final
  refine ⟨last,ends.verdict,?_,ends.stop⟩
  rw [ends.attempts, Nat.add_sub_cancel_left, List.range'_one]
  rfl

theorem exists_tried_tryOn (room : made + left + 1 = r.attempts)
    (earlier : ∀ i, i < made → ∃ e, c.fate limit i = .ok (.error e)) :
    ∃ k, made ≤ k ∧ r.Tried limit c start made k
      (r.tryOn limit c left made (r.beginOf limit c start made)) := by
  -- On the attempts that are left: one that fails hands the trial on to those after it.
  induction left generalizing made with
  | zero =>
    have last : r.Last (c.fate limit) made := ⟨by omega,earlier,.inl (by omega)⟩
    exact ⟨made,Nat.le_refl made,tried_of_final last (.inl rfl)⟩
  | succ left ih =>
    by_cases failing : ∃ e, c.fate limit made = .ok (.error e)
    · obtain ⟨e,came⟩ := failing
      have failed : ∀ i, i < made + 1 → ∃ e, c.fate limit i = .ok (.error e) := by
        intro i hi
        rcases Nat.lt_or_eq_of_le (Nat.le_of_lt_succ hi) with lt | rfl
        · exact earlier i lt
        · exact ⟨e,came⟩
      obtain ⟨rest,hrest,verdict,stop,attempts⟩ :=
        r.tryOn_succ_of_error left (r.beginOf limit c start made) came
      obtain ⟨k,le,tried⟩ := ih (by omega) failed
      have next : (attemptAt limit c made (r.beginOf limit c start made)).stop + r.pause =
          r.beginOf limit c start (made + 1) := rfl
      rw [next] at hrest
      rw [← hrest] at tried
      refine ⟨k,by omega,tried.last,verdict.trans tried.verdict,?_,stop.trans tried.stop⟩
      have more : k + 1 - made = k + 1 - (made + 1) + 1 := by omega
      rw [attempts, tried.attempts, more, List.range'_succ, List.map_cons]
    · have never : ∀ e, c.fate limit made ≠ .ok (.error e) := fun e came => failing ⟨e,came⟩
      have last : r.Last (c.fate limit) made := ⟨by omega,earlier,.inr never⟩
      exact ⟨made,Nat.le_refl made,tried_of_final last (.inr never)⟩

theorem attempts_pos (r : Retries) : 0 < r.attempts := Nat.le_max_left 1 r.maxAttempts

/-- Every trial has a last attempt and comes to the verdict that goes with it. -/
theorem exists_tried (r : Retries) (limit : Nat) (c : Checker) (start : Nat) :
    ∃ k, r.Tried limit c start 0 k (r.trial limit c start) := by
  have pos := r.attempts_pos
  have room : 0 + (r.attempts - 1) + 1 = r.attempts := by omega
  obtain ⟨k,_,tried⟩ : ∃ k, 0 ≤ k ∧ r.Tried limit c start 0 k (r.trial limit c start) :=
    exists_tried_tryOn room nofun
  exact ⟨k,tried⟩

theorem verdict_trial (h : r.Last (c.fate limit) k) (start : Nat) :
    (r.trial limit c start).verdict = (c.fate limit k).map r.judged := by
  obtain ⟨k',tried⟩ := r.exists_tried limit c start
  rw [tried.verdict, h.unique tried.last]

/-- The verdict on a checker does not hang on when it is tried. -/
theorem verdict_trial_congr (r : Retries) (limit : Nat) (c : Checker) (a b : Nat) :
    (r.trial limit c a).verdict = (r.trial limit c b).verdict := by
  obtain ⟨k,tried⟩ := r.exists_tried limit c a
  rw [tried.verdict, verdict_trial tried.last]

end Retries
end HealthProbe
