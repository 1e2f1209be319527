import HealthProbe.Proofs.Pass.Protocol

/-! # Passes that crash

A pass crashes exactly if one of its checkers does, with the last words of the first of them. Those before it
have come to outcomes, and those after it are not tried.
-/
namespace HealthProbe

/-- A limit makes nothing crash that does not crash without it. -/
theorem Checker.fate_eq_error {c : Checker} {limit n : Nat} {words : String}
    (h : c.fate limit n = .error words) : ∃ after, c.behaviour n = .crash after words := by
  rcases (c.behaviour n).within_own_or_timeout limit with own | timeout
  · have crashed : (c.behaviour n).fate = .error words := own.symm.trans h
    cases works : c.behaviour n with
    | work w =>
      rw [works] at crashed
      cases crashed
    | crash after words' =>
      rw [works] at crashed
      cases crashed
      exact ⟨after,rfl⟩
  · cases timeout.symm.trans h

namespace Retries
variable {r : Retries} {limit start : Nat} {c : Checker} {words : String}

def Crashes (r : Retries) (limit : Nat) (c : Checker) (words : String) : Prop :=
  ∃ k, r.Last (c.fate limit) k ∧ c.fate limit k = .error words

def Settles (r : Retries) (limit : Nat) (c : Checker) : Prop :=
  ∃ k o, r.Last (c.fate limit) k ∧ c.fate limit k = .ok o

theorem Crashes.not_settles (h : r.Crashes limit c words) : ¬ r.Settles limit c := by
  rintro ⟨k,o,last,came⟩
  obtain ⟨k',last',crash⟩ := h
  obtain rfl := last.unique last'
  cases came.symm.trans crash

theorem crashes_of_trial (h : (r.trial limit c start).verdict = .error words) :
    r.Crashes limit c words := by
  obtain ⟨k,tried⟩ := r.exists_tried limit c start
  refine ⟨k,tried.last,?_⟩
  rw [tried.verdict] at h
  cases came : c.fate limit k with
  | error words' =>
    rw [came] at h
    cases h
    rfl
  | ok o =>
    rw [came] at h
    cases h

theorem settles_of_trial {v : Verdict} (h : (r.trial limit c start).verdict = .ok v) :
    r.Settles limit c := by
  obtain ⟨k,tried⟩ := r.exists_tried limit c start
  rw [tried.verdict] at h
  cases came : c.fate limit k with
  | error words =>
    rw [came] at h
    cases h
  | ok o => exact ⟨k,o,tried.last,came⟩

end Retries

namespace Pass
variable {p : Pass} {start : Nat} {words words' : String} {results : Table Verdict}

def FirstCrash (p : Pass) (words : String) : Prop :=
  ∃ (i : Nat) (c : Checker), p.checkers[i]? = some c ∧ p.retries.Crashes (p.limit c) c words ∧
    ∀ (j : Nat) (c' : Checker), j < i → p.checkers[j]? = some c' → p.retries.Settles (p.limit c') c'

theorem FirstCrash.unique (h : p.FirstCrash words) (h' : p.FirstCrash words') : words = words' := by
  obtain ⟨i,c,hc,crash,before⟩ := h
  obtain ⟨j,c',hc',crash',before'⟩ := h'
  rcases Nat.lt_trichotomy i j with lt | rfl | lt
  · exact absurd (before' i c lt hc) crash.not_settles
  · obtain rfl : c = c' := Option.some.inj (hc.symm.trans hc')
    obtain ⟨k,last,came⟩ := crash
    obtain ⟨k',last',came'⟩ := crash'
    obtain rfl := last.unique last'
    exact Except.error.inj (came.symm.trans came')
  · exact absurd (before j c' lt hc') crash'.not_settles

theorem firstCrash_of_results (came : p.results start = .error words) : p.FirstCrash words := by
  have sums := p.sums_results start
  rw [came] at sums
  obtain ⟨before,t,split,earlier,last⟩ : ∃ before t, p.trialsFrom start = before ++ [t] ∧
      (∀ t ∈ before, ∃ v, t.verdict = .ok v) ∧ t.verdict = .error words := by
    cases sums with
    | crashed split _ earlier last => exact ⟨_,_,split,earlier,last⟩
  have place : (p.trialsFrom start)[before.length]? = some t := by
    rw [split, List.getElem?_concat_length]
  obtain ⟨c,began,hc,rfl⟩ := Retries.exists_trial place
  refine ⟨before.length,c,hc,Retries.crashes_of_trial last,?_⟩
  intro j c' hj hc'
  have place' : (p.trialsFrom start)[j]? = some before[j] := by
    rw [split, List.getElem?_append_left hj, List.getElem?_eq_getElem hj]
  obtain ⟨d,began',hd,trial⟩ := Retries.exists_trial place'
  obtain rfl : d = c' := Option.some.inj (hd.symm.trans hc')
  obtain ⟨v,verdict⟩ := earlier _ (List.getElem_mem hj)
  rw [trial] at verdict
  exact Retries.settles_of_trial verdict

theorem settles_of_results (came : p.results start = .ok results) {c : Checker} (hc : c ∈ p.checkers) :
    p.retries.Settles (p.limit c) c := by
  have sums := p.sums_results start
  rw [came] at sums
  obtain ⟨vs,length,told⟩ : ∃ vs : List Verdict, (p.trialsFrom start).length = p.checkers.length ∧
      (p.trialsFrom start).map Trial.verdict = vs.map .ok := by
    cases sums with
    | whole length told => exact ⟨_,length,told⟩
  obtain ⟨j,hj⟩ := List.mem_iff_getElem?.mp hc
  have long : j < (p.trialsFrom start).length := length ▸ (List.getElem?_eq_some_iff.mp hj).1
  obtain ⟨d,began,hd,trial⟩ := Retries.exists_trial (List.getElem?_eq_getElem long)
  obtain rfl : d = c := Option.some.inj (hd.symm.trans hj)
  have given : ((p.trialsFrom start)[j]).verdict ∈ vs.map Except.ok :=
    told ▸ List.mem_map_of_mem (List.getElem_mem long)
  obtain ⟨v,_,verdict⟩ := List.mem_map.mp given
  rw [trial] at verdict
  exact Retries.settles_of_trial verdict.symm

/-- A pass crashes exactly if one of its checkers does. -/
theorem results_eq_error_iff : p.results start = .error words ↔ p.FirstCrash words := by
  refine ⟨firstCrash_of_results,?_⟩
  intro crash
  cases came : p.results start with
  | error words' => rw [crash.unique (firstCrash_of_results came)]
  | ok results =>
    obtain ⟨i,c,hc,crashes,_⟩ := crash
    exact absurd (settles_of_results came (List.mem_of_getElem? hc)) crashes.not_settles

end Pass
end HealthProbe
