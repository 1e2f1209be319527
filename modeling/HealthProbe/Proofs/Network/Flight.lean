import HealthProbe.Network.Check
import HealthProbe.Proofs.Greatest
import Mathlib.Logic.Relation

/-! # Probes under way

The probes of a check start at once. One that is due ends, and of several that are due any may be the next;
time passes only while none is due, and under a limit not beyond it. However the probes take turns, each
course comes to an end: with all of them back at the greatest of their delays, or at the limit with some of
them still out.
-/
namespace HealthProbe

/-- Probes under way: the instant, and what came of those that have ended, with their numbers and in the
order of their ends. -/
structure Flight where
  clock : Nat
  ended : List (Nat × Option CheckFailure)
  deriving DecidableEq, Repr

namespace Flight

variable {limit n : Nat} {probes : List Probe} {f g : Flight} {i : Nat} {p : Probe}

def departure : Flight := ⟨0, []⟩

def result? (f : Flight) (i : Nat) : Option (Option CheckFailure) := f.ended.lookup i

def IsOut (probes : List Probe) (f : Flight) (i : Nat) (p : Probe) : Prop :=
  probes[i]? = some p ∧ f.result? i = none

inductive Step (limit : Nat) (probes : List Probe) : Flight → Flight → Prop
  | finish {f : Flight} {i : Nat} {p : Probe} (out : f.IsOut probes i p) (due : p.delay ≤ f.clock) :
      Step limit probes f ⟨f.clock, f.ended ++ [(i, p.failure)]⟩
  | pass {f : Flight} {t : Nat} (later : f.clock < t) (awaited : ∃ i p, f.IsOut probes i p)
      (early : ∀ i p, f.IsOut probes i p → t ≤ p.delay) (allowed : Work.fits limit t = true) :
      Step limit probes f ⟨t, f.ended⟩

def isBack (n : Nat) (f : Flight) : Bool := (List.range n).all fun i => (f.result? i).isSome

def signals (peers : Nat) (f : Flight) : Signals :=
  ⟨peers, ((List.range peers).map f.result?).count (some none), f.result? peers == some none,
    (f.result? peers).join.map CheckFailure.message⟩

def outcome (limit peers : Nat) (f : Flight) : Outcome :=
  if f.isBack (peers + 1) then .ok (f.signals peers).verdict else Work.timedOut limit

/-! ## The greatest delay -/

theorem delay_le_duration (h : p ∈ probes) : p.delay ≤ NetworkCheck.duration probes := le_foldl_max h

theorem duration_le {t : Nat} (h : ∀ p ∈ probes, p.delay ≤ t) : NetworkCheck.duration probes ≤ t :=
  foldl_max_le_iff.mpr h

theorem exists_delay_eq_duration (h : probes ≠ []) :
    ∃ p ∈ probes, p.delay = NetworkCheck.duration probes := by
  rcases foldl_max_reached probes Probe.delay with zero | reached
  · obtain ⟨p,hp⟩ := List.exists_mem_of_ne_nil probes h
    have le : p.delay ≤ 0 := zero ▸ le_foldl_max hp
    exact ⟨p,hp,(Nat.le_zero.mp le).trans zero.symm⟩
  · exact reached

/-! ## One step -/

theorem result?_finish (f : Flight) (i j : Nat) (r : Option CheckFailure) :
    result? ⟨f.clock, f.ended ++ [(i, r)]⟩ j = (f.result? j).or (if j = i then some r else none) := by
  simp only [result?, List.lookup_append]
  congr 1
  by_cases h : j = i
  · simp [h]
  · have other : (j == i) = false := beq_eq_false_iff_ne.mpr h
    simp only [List.lookup_cons, other, List.lookup_nil, if_neg h]

structure Sound (limit : Nat) (probes : List Probe) (f : Flight) : Prop where
  results : ∀ i r, f.result? i = some r → ∃ p, probes[i]? = some p ∧ p.failure = r ∧ p.delay ≤ f.clock
  /-- No probe ends too late. -/
  punctual : ∀ i p, f.IsOut probes i p → f.clock ≤ p.delay
  within : f.clock ≤ NetworkCheck.duration probes
  allowed : Work.fits limit f.clock = true

theorem sound_departure : departure.Sound limit probes := by
  constructor
  · intro i r h
    cases h
  · exact fun _ _ _ => Nat.zero_le _
  · exact Nat.zero_le _
  · simp [departure, Work.fits]

theorem IsOut.mem (h : f.IsOut probes i p) : p ∈ probes := List.mem_of_getElem? h.1

theorem Step.sound (h : Step limit probes f g) (sound : f.Sound limit probes) : g.Sound limit probes := by
  cases h with
  | @finish i p out due =>
    refine ⟨?_,?_,sound.within,sound.allowed⟩
    · intro j r hj
      rw [result?_finish, Option.or_eq_some_iff] at hj
      rcases hj with old | ⟨-,new⟩
      · exact sound.results j r old
      · split at new
        · rename_i eq
          cases new
          exact ⟨p,eq ▸ out.1,rfl,due⟩
        · cases new
    · intro j q outThen
      refine sound.punctual j q ⟨outThen.1,?_⟩
      have still := outThen.2
      rw [result?_finish, Option.or_eq_none_iff] at still
      exact still.1
  | @pass t later awaited early allowed =>
    obtain ⟨i,p,out⟩ := awaited
    refine ⟨?_,early,Nat.le_trans (early i p out) (delay_le_duration out.mem),allowed⟩
    intro j r hj
    obtain ⟨q,hq,failed,le⟩ := sound.results j r hj
    exact ⟨q,hq,failed,by simp only; omega⟩

theorem sound_of_course (h : Relation.ReflTransGen (Step limit probes) departure f) :
    f.Sound limit probes := by
  induction h with
  | refl => exact sound_departure
  | tail _ step ih => exact step.sound ih

/-! ## The end of a course -/

def stepsLeft (probes : List Probe) (f : Flight) : Nat :=
  ((List.range probes.length).filter fun i => (f.result? i).isNone).length +
    (NetworkCheck.duration probes - f.clock)

theorem Step.stepsLeft_lt (h : Step limit probes f g) (sound : f.Sound limit probes) :
    g.stepsLeft probes < f.stepsLeft probes := by
  have within := (h.sound sound).within
  cases h with
  | @finish i p out due =>
    refine Nat.add_lt_add_right ?_ _
    -- No number is new among those that are out, and the one of this probe is gone.
    have fewer : ((List.range probes.length).filter fun j =>
        (result? ⟨f.clock, f.ended ++ [(i, p.failure)]⟩ j).isNone).Sublist
          ((List.range probes.length).filter fun j => (f.result? j).isNone) := by
      refine List.monotone_filter_right _ fun j hj => ?_
      rw [result?_finish, Option.isNone_iff_eq_none, Option.or_eq_none_iff] at hj
      exact Option.isNone_iff_eq_none.mpr hj.1
    refine Nat.lt_of_le_of_ne fewer.length_le fun same => ?_
    have mem : i ∈ (List.range probes.length).filter fun j => (f.result? j).isNone :=
      List.mem_filter.mpr ⟨List.mem_range.mpr (List.getElem?_eq_some_iff.mp out.1).1,by simp [out.2]⟩
    rw [← fewer.eq_of_length same, List.mem_filter, result?_finish] at mem
    simp [out.2] at mem
  | @pass t later awaited early allowed =>
    simp only [stepsLeft, result?] at within ⊢
    omega

/-- No course goes on for ever. -/
theorem acc_departure (limit : Nat) (probes : List Probe) :
    Acc (fun g f => Step limit probes f g) departure := by
  have ends : ∀ k f, stepsLeft probes f ≤ k → f.Sound limit probes →
      Acc (fun g f => Step limit probes f g) f := by
    intro k
    induction k with
    | zero =>
      intro f few sound
      refine Acc.intro f fun g step => ?_
      have := Step.stepsLeft_lt step sound
      omega
    | succ k ih =>
      intro f few sound
      refine Acc.intro f fun g step => ih g ?_ (Step.sound step sound)
      have := Step.stepsLeft_lt step sound
      omega
  exact ends _ _ (Nat.le_refl _) sound_departure

def Rests (limit : Nat) (probes : List Probe) (f : Flight) : Prop := ∀ g, ¬Step limit probes f g

theorem not_isBack (h : ¬f.isBack probes.length) : ∃ i p, f.IsOut probes i p := by
  simp only [isBack, List.all_eq_true, not_forall, Option.not_isSome_iff_eq_none] at h
  obtain ⟨i,hi,out⟩ := h
  exact ⟨i,_,List.getElem?_eq_getElem (List.mem_range.mp hi),out⟩

/-- While a probe is out, something happens, unless the limit is there. -/
theorem rests_of_out (sound : f.Sound limit probes) (rests : f.Rests limit probes)
    (out : f.IsOut probes i p) : 0 < limit ∧ f.clock = limit ∧ limit < NetworkCheck.duration probes := by
  have notDue : ∀ j q, f.IsOut probes j q → f.clock < q.delay := fun j q outThen =>
    Nat.not_le.mp fun due => rests _ (.finish outThen due)
  -- Nothing is due, so only the limit can keep the clock from going on by one.
  have forbidden : ¬Work.fits limit (f.clock + 1) = true := fun allowed =>
    rests _ (.pass (Nat.lt_succ_self _) ⟨i,p,out⟩ notDue allowed)
  have allowed := sound.allowed
  simp only [Work.fits, Bool.or_eq_true, beq_iff_eq, decide_eq_true_eq] at forbidden allowed
  have late := notDue i p out
  have last := delay_le_duration out.mem
  omega

theorem result?_of_isBack (sound : f.Sound limit probes) (back : f.isBack probes.length)
    (h : probes[i]? = some p) : f.result? i = some p.failure ∧ p.delay ≤ f.clock := by
  have inside := (List.getElem?_eq_some_iff.mp h).1
  obtain ⟨r,hr⟩ := Option.isSome_iff_exists.mp (List.all_eq_true.mp back i (List.mem_range.mpr inside))
  obtain ⟨q,hq,failed,le⟩ := sound.results i r hr
  cases h.symm.trans hq
  exact ⟨failed ▸ hr,le⟩

theorem clock_of_isBack (sound : f.Sound limit probes) (back : f.isBack probes.length) :
    f.clock = NetworkCheck.duration probes := by
  refine Nat.le_antisymm sound.within (duration_le fun p hp => ?_)
  obtain ⟨i,hi⟩ := List.getElem?_of_mem hp
  exact (result?_of_isBack sound back hi).2

/-- The signals go by the numbers of the probes, whatever the order of their ends. -/
theorem signals_of_isBack {peers : List Probe} {service : Probe}
    (sound : f.Sound limit (peers ++ [service])) (back : f.isBack (peers ++ [service]).length) :
    f.signals peers.length = NetworkCheck.signals peers service := by
  have last : f.result? peers.length = some service.failure :=
    (result?_of_isBack sound back List.getElem?_concat_length).1
  have each : (List.range peers.length).map f.result? = peers.map fun p => some p.failure := by
    refine List.ext_getElem (by simp) fun i hi hi' => ?_
    have inside : i < peers.length := by simpa using hi'
    have there : (peers ++ [service])[i]? = some peers[i] := by
      rw [List.getElem?_append_left inside, List.getElem?_eq_getElem inside]
    simp [(result?_of_isBack sound back there).1]
  have counted : ((peers.map fun p => some p.failure).count (some none)) = peers.countP Probe.isReached := by
    rw [List.count_eq_countP, List.countP_map]
    refine List.countP_congr fun p _ => ?_
    simp [Probe.isReached]
  simp only [signals, NetworkCheck.signals, each, counted, last, Option.join_some, Probe.isReached]
  cases service.failure <;> rfl

end Flight
end HealthProbe
