import HealthProbe.Proofs.Pass.Trials
import Mathlib.Algebra.BigOperators.Group.Finset.Basic

/-! # How long a trial takes

A limit lets a run take its own time, or cuts it there. The attempts of a trial come one after the other
with a pause between any two of them and none behind the last, so a trial takes the time of its attempts
and of one pause fewer.
-/
namespace HealthProbe

namespace Retries
variable {r : Retries} {limit start last i : Nat} {c : Checker} {t : Trial}

theorem duration_under (limit : Nat) (c : Checker) (i : Nat) :
    ((c.behaviour i).under limit).duration = (c.attempt limit i).1 :=
  congrArg Prod.fst ((c.behaviour i).within_eq limit).symm

theorem beginOf_eq_sum (r : Retries) (limit : Nat) (c : Checker) (start i : Nat) :
    r.beginOf limit c start i = start + ∑ j ∈ Finset.range i, ((c.attempt limit j).1 + r.pause) := by
  induction i with
  | zero => rfl
  | succ i ih =>
    rw [beginOf, ih, Finset.sum_range_succ, duration_under]
    omega

def attemptIn (r : Retries) (limit : Nat) (c : Checker) (start i : Nat) : Attempt :=
  let begins := start + ∑ j ∈ Finset.range i, ((c.attempt limit j).1 + r.pause)
  ⟨begins, begins + (c.attempt limit i).1, decide (0 < limit ∧ limit < (c.behaviour i).duration)⟩

theorem attemptAt_beginOf (r : Retries) (limit : Nat) (c : Checker) (start i : Nat) :
    attemptAt limit c i (r.beginOf limit c start i) = r.attemptIn limit c start i := by
  have cut : (!Work.fits limit (c.behaviour i).duration) =
      decide (0 < limit ∧ limit < (c.behaviour i).duration) := by
    rw [Bool.eq_iff_iff, Bool.not_eq_true', Work.fits_eq_false_iff, decide_eq_true_iff]
  rw [attemptAt, attemptIn, cut, beginOf_eq_sum, duration_under]

/-- The pauses lie between the attempts. -/
theorem stop_attemptIn (r : Retries) (limit : Nat) (c : Checker) (start last : Nat) :
    (r.attemptIn limit c start last).stop =
      start + ∑ i ∈ Finset.range (last + 1), (c.attempt limit i).1 + last * r.pause := by
  have pauses : ∑ j ∈ Finset.range last, ((c.attempt limit j).1 + r.pause) =
      ∑ j ∈ Finset.range last, (c.attempt limit j).1 + last * r.pause := by
    rw [Finset.sum_add_distrib, Finset.sum_const_nat fun _ _ => rfl, Finset.card_range]
  simp only [attemptIn, pauses, Finset.sum_range_succ]
  omega

structure Takes (r : Retries) (limit : Nat) (c : Checker) (start last : Nat) (t : Trial) : Prop where
  allowed : last + 1 ≤ max 1 r.maxAttempts
  failed : ∀ i, i < last → ∃ e, (c.attempt limit i).2 = .ok (.error e)
  ends : last + 1 = max 1 r.maxAttempts ∨ (∃ v, (c.attempt limit last).2 = .ok (.ok v)) ∨
    ∃ words, (c.attempt limit last).2 = .error words
  attempts : t.attempts = (List.range (last + 1)).map (r.attemptIn limit c start)
  given : ∀ v, (c.attempt limit last).2 = .ok (.ok v) → t.verdict = .ok v
  spent : ∀ e, (c.attempt limit last).2 = .ok (.error e) → t.verdict = .ok (.unknown "RunError"
    ("检测在 " ++ toString (max 1 r.maxAttempts) ++ " 次尝试后仍然失败: " ++ e.message))
  crashed : ∀ words, (c.attempt limit last).2 = .error words → t.verdict = .error words
  stop : t.stop = start + ∑ i ∈ Finset.range (last + 1), (c.attempt limit i).1 + last * r.pause

theorem Tried.takes (h : r.Tried limit c start 0 last t) : r.Takes limit c start last t := by
  obtain ⟨final,verdict,attempts,stop⟩ := h
  rw [attemptAt_beginOf] at stop
  simp only [attemptAt_beginOf] at attempts
  refine ⟨final.allowed,final.failed,final.ends.imp_right ?_,?_,?_,?_,?_,
    stop.trans (r.stop_attemptIn limit c start last)⟩
  · intro never
    cases came : (c.attempt limit last).2 with
    | error words => exact .inr ⟨words,rfl⟩
    | ok o =>
      cases o with
      | ok v => exact .inl ⟨v,rfl⟩
      | error e => exact absurd came (never e)
  · rw [attempts, List.range_eq_range']
    rfl
  · intro v came
    rw [verdict, Checker.fate, came]
    rfl
  · intro e came
    rw [verdict, Checker.fate, came]
    rfl
  · intro words came
    rw [verdict, Checker.fate, came]
    rfl

theorem Takes.isLast (h : r.Takes limit c start last t) : r.Last (c.fate limit) last := by
  refine ⟨h.allowed,h.failed,h.ends.imp_right ?_⟩
  rintro (⟨v,given⟩ | ⟨words,crashed⟩) e failed
  · cases given.symm.trans failed
  · cases crashed.symm.trans failed

theorem Takes.verdict_eq (h : r.Takes limit c start last t) :
    t.verdict = (c.fate limit last).map r.judged := by
  cases came : c.fate limit last with
  | error words => exact h.crashed words came
  | ok o =>
    cases o with
    | ok v => exact h.given v came
    | error e => exact h.spent e came

/-- A trial goes on up to the first attempt that gives a verdict or crashes, or to the last that is allowed.
Every attempt begins one pause behind the one before it, and the trial is over with the last of them. -/
theorem trial_exact (r : Retries) (limit : Nat) (c : Checker) (start : Nat) :
    ∃ last, r.Takes limit c start last (r.trial limit c start) := by
  obtain ⟨last,tried⟩ := r.exists_tried limit c start
  exact ⟨last,tried.takes⟩

end Retries
end HealthProbe
