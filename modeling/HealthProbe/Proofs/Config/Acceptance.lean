import HealthProbe.Config.Load
import HealthProbe.Proofs.Config.Names

/-! # Which configurations are accepted

A configuration has to meet a list of conditions. It is accepted if it meets all of them, and refused for
the first that it does not meet. The order is that of the list: what is general comes first, then the
checkers one by one, each with all of its conditions.
-/
namespace HealthProbe

/-- Something that has to hold, and what is told of a configuration for which it does not. -/
structure Condition where
  holds : Prop
  violation : Violation

namespace Condition

def FirstBroken (cs : List Condition) (v : Violation) : Prop :=
  ∃ before x after, cs = before ++ x :: after ∧ (∀ y ∈ before, y.holds) ∧ ¬ x.holds ∧ x.violation = v

def Judges (cs : List Condition) : Option Violation → Prop
  | none => ∀ x ∈ cs, x.holds
  | some v => FirstBroken cs v

variable {cs ds : List Condition} {x : Condition} {v : Violation} {o : Option Violation}

theorem FirstBroken.not_forall (h : FirstBroken cs v) : ¬ ∀ x ∈ cs, x.holds := by
  obtain ⟨before,x,after,rfl,_,broken,_⟩ := h
  intro all
  exact broken (all x (by simp))

/-- There is only one first. -/
theorem FirstBroken.unique {w : Violation} (h : FirstBroken cs v) (h' : FirstBroken cs w) : v = w := by
  obtain ⟨before,x,after,hcs,held,broken,rfl⟩ := h
  obtain ⟨before',x',after',hcs',held',broken',rfl⟩ := h'
  rw [hcs, List.append_eq_append_iff] at hcs'
  rcases hcs' with ⟨more,rfl,hmore⟩ | ⟨more,rfl,hmore⟩
  · cases more with
    | nil =>
      cases hmore
      rfl
    | cons y more =>
      cases hmore
      exact absurd (held' x (by simp)) broken
  · cases more with
    | nil =>
      cases hmore
      rfl
    | cons y more =>
      cases hmore
      exact absurd (held x' (by simp)) broken'

theorem judges_nil : Judges [] none := by
  intro x hx
  cases hx

theorem Judges.cons (h : Judges cs o) (holds : x.holds) : Judges (x :: cs) o := by
  cases o with
  | none => exact List.forall_mem_cons.mpr ⟨holds,h⟩
  | some v =>
    obtain ⟨before,y,after,rfl,held,broken⟩ := h
    exact ⟨x :: before,y,after,rfl,List.forall_mem_cons.mpr ⟨holds,held⟩,broken⟩

theorem judges_broken (broken : ¬ x.holds) : Judges (x :: cs) (some x.violation) :=
  ⟨[],x,cs,rfl,fun y hy => (by cases hy),broken,rfl⟩

theorem Judges.append_of_some (h : Judges cs (some v)) (ds : List Condition) :
    Judges (cs ++ ds) (some v) := by
  obtain ⟨before,x,after,rfl,held,broken⟩ := h
  exact ⟨before,x,after ++ ds,by simp,held,broken⟩

theorem Judges.append_of_none (h : Judges cs none) (h' : Judges ds o) : Judges (cs ++ ds) o := by
  induction cs with
  | nil => exact h'
  | cons x cs ih =>
    obtain ⟨holds,rest⟩ := List.forall_mem_cons.mp h
    exact (ih rest).cons holds

theorem Judges.eq_none_iff (h : Judges cs o) : o = none ↔ ∀ x ∈ cs, x.holds := by
  cases o with
  | none => exact ⟨fun _ => h,fun _ => rfl⟩
  | some v =>
    constructor
    · intro none
      cases none
    · intro all
      exact absurd all (FirstBroken.not_forall h)

theorem Judges.eq_some_iff (h : Judges cs o) : o = some v ↔ FirstBroken cs v := by
  cases o with
  | none =>
    constructor
    · intro some
      cases some
    · intro broken
      exact absurd h broken.not_forall
  | some w =>
    constructor
    · rintro ⟨⟩
      exact h
    · intro broken
      rw [FirstBroken.unique h broken]

end Condition

/-! ## The conditions -/

def General.conditions (g : General) : List Condition :=
  [⟨Text.blank g.nodeName = false, .blankNode⟩,
   ⟨Name.IsDomain g.nodeName, .badNode g.nodeName⟩,
   ⟨1 ≤ g.retryAttempts, .noAttempts⟩,
   ⟨g.logLevel ∈ ["trace", "debug", "info", "warn", "error"], .badLogLevel g.logLevel⟩]

/-- The conditions on a checker that comes after others with the given names. Those on the network part
are for checkers of one kind only. -/
def CheckerEntry.conditions (earlier : List String) (e : CheckerEntry) : List Condition :=
  let onNetwork (p : NetworkSpec → Prop) : Prop := e.kind = "network" → ∀ s, e.network = some s → p s
  [⟨e.name.length ≤ 63 ∧ Name.IsLabel e.name.toList, .badChecker e.name⟩,
   ⟨e.name ∉ earlier, .repeatedChecker e.name⟩,
   ⟨Text.blank e.kind = false, .noKind e.name⟩,
   ⟨e.kind = "network" → e.network.isSome = true, .noNetwork e.name⟩,
   ⟨onNetwork fun s => s.port ≠ 0, .noPort e.name⟩,
   ⟨onNetwork fun s => s.probeTimeout ≠ 0, .noProbeTimeout e.name⟩,
   ⟨onNetwork fun s => Text.blank s.serviceName = false, .noService e.name⟩]

def checkersConditions (earlier : List String) : List CheckerEntry → List Condition
  | [] => []
  | e :: es => e.conditions earlier ++ checkersConditions (e.name :: earlier) es

/-- All that a configuration has to meet, in the order in which it is told. -/
def Config.conditions (c : Config) : List Condition :=
  c.general.conditions ++ ⟨c.checkers ≠ [], .noCheckers⟩ :: checkersConditions [] c.checkers

structure Config.Acceptable (c : Config) : Prop where
  node : Name.IsDomain c.general.nodeName
  attempts : 1 ≤ c.general.retryAttempts
  level : c.general.logLevel ∈ ["trace", "debug", "info", "warn", "error"]
  filled : c.checkers ≠ []
  names : ∀ e ∈ c.checkers, e.name.length ≤ 63 ∧ Name.IsLabel e.name.toList
  distinct : (c.checkers.map CheckerEntry.name).Nodup
  kinds : ∀ e ∈ c.checkers, Text.blank e.kind = false
  network : ∀ e ∈ c.checkers, e.kind = "network" →
    ∃ s, e.network = some s ∧ s.port ≠ 0 ∧ s.probeTimeout ≠ 0 ∧ Text.blank s.serviceName = false

/-! ## Judging -/

open Condition

theorem General.judges_violation? (g : General) : Judges g.conditions g.violation? := by
  unfold violation? conditions nodeViolation?
  by_cases blank : Text.blank g.nodeName = true
  · rw [if_pos blank]
    exact judges_broken (by simp [blank])
  rw [if_neg blank]
  refine .cons ?_ (Bool.not_eq_true _ ▸ blank)
  by_cases node : Name.isNode g.nodeName = true
  swap
  · rw [if_neg node]
    exact judges_broken (mt Name.isNode_iff.mpr node)
  rw [if_pos node]
  refine .cons ?_ (Name.isNode_iff.mp node)
  by_cases attempts : g.retryAttempts = 0
  · rw [if_pos attempts]
    exact judges_broken (by simp [attempts])
  rw [if_neg attempts]
  have positive : g.retryAttempts.toNat ≠ 0 := fun h => attempts (UInt32.toNat_inj.mp h)
  refine .cons ?_ (UInt32.le_iff_toNat_le.mpr (Nat.pos_of_ne_zero positive))
  by_cases level : g.logLevel ∈ logLevels
  swap
  · rw [if_pos level]
    exact judges_broken level
  rw [if_neg (not_not.mpr level)]
  exact judges_nil.cons level

theorem CheckerEntry.judges_violation? (earlier : List String) (e : CheckerEntry) :
    Judges (e.conditions earlier) (e.violation? earlier) := by
  unfold violation? conditions
  by_cases name : Name.isChecker e.name = true
  swap
  · rw [if_pos (by simp [name])]
    exact judges_broken (mt Name.isChecker_iff.mpr name)
  rw [if_neg (by simp [name])]
  refine .cons ?_ (Name.isChecker_iff.mp name)
  by_cases repeated : e.name ∈ earlier
  · rw [if_pos repeated]
    exact judges_broken (not_not.mpr repeated)
  rw [if_neg repeated]
  refine .cons ?_ repeated
  by_cases blank : Text.blank e.kind = true
  · rw [if_pos blank]
    exact judges_broken (by simp [blank])
  rw [if_neg blank]
  refine .cons ?_ (Bool.not_eq_true _ ▸ blank)
  by_cases kind : e.kind = networkKind
  swap
  · rw [if_neg kind]
    have no {p : Prop} : e.kind = "network" → p := fun h => absurd h kind
    exact (((judges_nil.cons no).cons no).cons no).cons no
  rw [if_pos kind]
  cases network : e.network with
  | none => exact judges_broken fun h => absurd (h kind) (by simp)
  | some s =>
    refine .cons ?_ fun _ => rfl
    change Judges _ (s.violation? e.name)
    unfold NetworkSpec.violation?
    by_cases port : s.port = 0
    · rw [if_pos port]
      exact judges_broken fun h => h kind s rfl port
    rw [if_neg port]
    refine .cons ?_ fun _ s' hs => Option.some.inj hs ▸ port
    by_cases timeout : s.probeTimeout = 0
    · rw [if_pos timeout]
      exact judges_broken fun h => h kind s rfl timeout
    rw [if_neg timeout]
    refine .cons ?_ fun _ s' hs => Option.some.inj hs ▸ timeout
    by_cases service : Text.blank s.serviceName = true
    · rw [if_pos service]
      exact judges_broken fun h => by simpa [service] using h kind s rfl
    rw [if_neg service]
    exact judges_nil.cons fun _ s' hs => Option.some.inj hs ▸ eq_false_of_ne_true service

theorem judges_checkersViolation? (earlier : List String) (es : List CheckerEntry) :
    Judges (checkersConditions earlier es) (checkersViolation? earlier es) := by
  -- All conditions of one checker are judged before any of the next, so the two lists are appended.
  induction es generalizing earlier with
  | nil => exact judges_nil
  | cons e es ih =>
    have first := e.judges_violation? earlier
    rw [checkersViolation?, checkersConditions]
    cases found : e.violation? earlier with
    | some v => exact (found ▸ first).append_of_some _
    | none => exact (found ▸ first).append_of_none (ih _)

theorem Config.judges_violation? (c : Config) : Judges c.conditions c.violation? := by
  have general := c.general.judges_violation?
  rw [Config.violation?, conditions]
  cases found : c.general.violation? with
  | some v => exact (found ▸ general).append_of_some _
  | none =>
    refine (found ▸ general).append_of_none ?_
    cases checkers : c.checkers with
    | nil => exact judges_broken (not_not.mpr rfl)
    | cons e es => exact (judges_checkersViolation? [] (e :: es)).cons (List.cons_ne_nil e es)

/-! ## Accepting -/

theorem CheckerEntry.forall_conditions_iff {earlier : List String} {e : CheckerEntry} :
    (∀ x ∈ e.conditions earlier, x.holds) ↔
      (e.name.length ≤ 63 ∧ Name.IsLabel e.name.toList) ∧ e.name ∉ earlier ∧ Text.blank e.kind = false ∧
      (e.kind = "network" →
        ∃ s, e.network = some s ∧ s.port ≠ 0 ∧ s.probeTimeout ≠ 0 ∧ Text.blank s.serviceName = false) := by
  simp only [conditions, List.forall_mem_cons, List.not_mem_nil, false_implies, implies_true, and_true]
  refine and_congr_right fun _ => and_congr_right fun _ => and_congr_right fun _ => ?_
  cases e.network with
  | none => simp
  | some s => simp [forall_and]

/-- Names are pairwise different when none stands among those before it. -/
theorem forall_checkersConditions_iff {earlier : List String} {es : List CheckerEntry} :
    (∀ x ∈ checkersConditions earlier es, x.holds) ↔
      (∀ e ∈ es, e.name.length ≤ 63 ∧ Name.IsLabel e.name.toList) ∧
      ((es.map CheckerEntry.name).Nodup ∧ ∀ e ∈ es, e.name ∉ earlier) ∧
      (∀ e ∈ es, Text.blank e.kind = false) ∧
      ∀ e ∈ es, e.kind = "network" →
        ∃ s, e.network = some s ∧ s.port ≠ 0 ∧ s.probeTimeout ≠ 0 ∧ Text.blank s.serviceName = false := by
  induction es generalizing earlier with
  | nil => simp [checkersConditions]
  | cons e es ih =>
    have apart : (∀ a ∈ es, a.name ∉ e.name :: earlier) ↔
        e.name ∉ es.map CheckerEntry.name ∧ ∀ a ∈ es, a.name ∉ earlier := by
      simp only [List.mem_cons, not_or, forall_and, List.mem_map, not_exists, not_and]
    rw [checkersConditions, List.forall_mem_append, CheckerEntry.forall_conditions_iff, ih, apart]
    simp only [List.forall_mem_cons, List.map_cons, List.nodup_cons]
    tauto

theorem Config.acceptable_iff_forall_conditions {c : Config} :
    c.Acceptable ↔ ∀ x ∈ c.conditions, x.holds := by
  have general : (∀ x ∈ c.general.conditions, x.holds) ↔ Text.blank c.general.nodeName = false ∧
      Name.IsDomain c.general.nodeName ∧ 1 ≤ c.general.retryAttempts ∧
      c.general.logLevel ∈ ["trace", "debug", "info", "warn", "error"] := by
    simp [General.conditions]
  rw [conditions, List.forall_mem_append, List.forall_mem_cons, general, forall_checkersConditions_iff]
  constructor
  · intro h
    exact ⟨⟨h.node.not_blank,h.node,h.attempts,h.level⟩,h.filled,h.names,
      ⟨h.distinct,fun e _ => List.not_mem_nil⟩,h.kinds,h.network⟩
  · rintro ⟨⟨_,node,attempts,level⟩,filled,names,⟨distinct,_⟩,kinds,network⟩
    exact ⟨node,attempts,level,filled,names,distinct,kinds,network⟩

theorem Config.violation?_eq_none_iff {c : Config} : c.violation? = none ↔ c.Acceptable :=
  c.judges_violation?.eq_none_iff.trans acceptable_iff_forall_conditions.symm

theorem Config.violation?_eq_some_iff {c : Config} {v : Violation} :
    c.violation? = some v ↔ FirstBroken c.conditions v :=
  c.judges_violation?.eq_some_iff

/-- The check of a configuration lets through just what can be used, and otherwise tells the first thing
wrong with it. -/
theorem Config.validated_iff (c : Config) :
    (∀ c', c.validated = .ok c' ↔ c.Acceptable ∧ c' = c) ∧
    ∀ f, c.validated = .error f ↔ ∃ v, FirstBroken c.conditions v ∧ f = .validation v.message := by
  rw [validated]
  cases found : c.violation? with
  | none =>
    have accepted := violation?_eq_none_iff.mp found
    constructor
    · intro c'
      rw [and_iff_right accepted, Except.ok.injEq, eq_comm]
    · intro f
      constructor
      · intro failed
        cases failed
      · rintro ⟨v,first,_⟩
        rw [violation?_eq_some_iff.mpr first] at found
        cases found
  | some v =>
    have broken := violation?_eq_some_iff.mp found
    constructor
    · intro c'
      constructor
      · intro passed
        cases passed
      · rintro ⟨accepted,_⟩
        rw [violation?_eq_none_iff.mpr accepted] at found
        cases found
    · intro f
      constructor
      · intro failed
        cases failed
        exact ⟨v,broken,rfl⟩
      · rintro ⟨w,first,rfl⟩
        rw [broken.unique first]

end HealthProbe
