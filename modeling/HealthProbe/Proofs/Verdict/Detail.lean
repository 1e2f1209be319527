import HealthProbe.NodeStatus.Coding
import HealthProbe.Proofs.Catalogue.Building
import HealthProbe.Proofs.Json.OneLine
import HealthProbe.Proofs.Pass.Protocol

/-! # Verdicts and their details

A verdict is made with a detail unless it calls the target healthy. Whoever counts or keeps one that was
made so finds in it the code to file it under. Reading a verdict asks for less: any health may come with a
detail or without one, so every verdict there is can be read from some text.
-/
namespace HealthProbe
open Decode

@[simp] theorem Detail.decode?_encode (d : Detail) : Detail.decode? d.encode = some d := by
  simp [decode?, encode, fields?, field?, Tree.valuesOf, required?, text?]

namespace Verdict
variable {v : Verdict}

inductive Made : Verdict → Prop
  | healthy : Made .healthy
  | unhealthy (code message : String) : Made (.unhealthy code message)
  | unknown (code message : String) : Made (.unknown code message)

theorem made_iff_consistent : v.Made ↔ v.Consistent := by
  constructor
  · intro made
    cases made with
    | healthy => exact consistent_healthy
    | unhealthy code message => exact consistent_unhealthy code message
    | unknown code message => exact consistent_unknown code message
  · intro fits
    obtain ⟨health,detail⟩ := v
    cases detail with
    | none =>
      obtain rfl : health = .healthy := fits.mp rfl
      exact .healthy
    | some d =>
      cases health with
      | healthy => cases fits.mpr rfl
      | unhealthy => exact .unhealthy d.code d.message
      | unknown => exact .unknown d.code d.message

inductive Clear (v : Verdict) : Prop
  | healthy (counted : Classification.of (.ok v) = ⟨.healthy, Classification.healthyCode⟩)
      (kept : ∀ moment, v.result moment = ⟨.healthy, none, none, moment⟩)
  | detailed (d : Detail) (ill : v.health ≠ .healthy)
      (counted : Classification.of (.ok v) = ⟨v.health, d.code⟩)
      (kept : ∀ moment, v.result moment = ⟨v.health, some d.code, some d.message, moment⟩)

theorem consistent_iff_clear : v.Consistent ↔ v.Clear := by
  constructor
  · intro fits
    cases made_iff_consistent.mpr fits with
    | healthy => exact .healthy rfl fun _ => rfl
    | unhealthy code message => exact .detailed ⟨code,message⟩ nofun rfl fun _ => rfl
    | unknown code message => exact .detailed ⟨code,message⟩ nofun rfl fun _ => rfl
  · intro clear
    cases clear with
    | healthy _ kept =>
      have health : v.health = .healthy := congrArg Result.health (kept .epoch)
      have code : v.code? = none := congrArg Result.code (kept .epoch)
      exact iff_of_true (Option.map_eq_none_iff.mp code) health
    | detailed d ill _ kept =>
      have code : v.code? = some d.code := congrArg Result.code (kept .epoch)
      refine iff_of_false ?_ ill
      intro absent
      rw [code?, absent] at code
      cases code

def ofText? (text : String) : Option Verdict := (Json.read text).bind decode?

@[simp] theorem decode?_encode (v : Verdict) : decode? v.encode = some v := by
  obtain ⟨health,detail⟩ := v
  cases detail with
  | none => simp [decode?, encode, fields?, field?, Tree.valuesOf, required?, orElse?, choice?]
  | some d =>
    have entry : orNull? Detail.decode? d.encode = some (some d) :=
      congrArg (Option.map some) d.decode?_encode
    simp [decode?, encode, fields?, field?, Tree.valuesOf, required?, orElse?, choice?, entry]

theorem isPlain_encode (v : Verdict) : v.encode.IsPlain := by
  obtain ⟨health,detail⟩ := v
  cases detail <;> simp [encode, Detail.encode, Tree.IsPlain, Tree.HasPlainFields]

/-- The verdicts that can be made are those whose detail fits, and only these show clearly. Every verdict
can be read from its own text, in either layout, whether its detail fits or not. -/
theorem detail_fits_if_made (v : Verdict) :
    (v.Made ↔ v.Consistent) ∧ (v.Consistent ↔ v.Clear) ∧
      ofText? (Json.line v.encode) = some v ∧ ofText? (Json.page v.encode) = some v := by
  refine ⟨made_iff_consistent,consistent_iff_clear,?_,?_⟩
  · rw [ofText?, Json.read_line v.isPlain_encode, Option.bind_some, decode?_encode]
  · rw [ofText?, Json.read_page v.isPlain_encode, Option.bind_some, decode?_encode]

/-- A text without a detail tells a verdict that is counted under the code of a healthy target. -/
theorem unhealthy_text_without_detail :
    ∃ v, ofText? "\x7b\"status\":\"unhealthy\"\x7d" = some v ∧ ¬ v.Consistent ∧
      v.health ≠ .healthy ∧ v.code? = none ∧
      Classification.of (.ok v) = ⟨.unhealthy, Classification.healthyCode⟩ := by
  refine ⟨⟨.unhealthy,none⟩,by decide +kernel,?_,nofun,rfl,rfl⟩
  intro fits
  cases fits.mp rfl

end Verdict

/-! ## Verdicts of checkers -/

def Checker.MakesVerdicts (c : Checker) : Prop := ∀ n v, (c.behaviour n).fate = .ok (.ok v) → v.Made

theorem Signals.made_verdict (s : Signals) : s.verdict.Made :=
  Verdict.made_iff_consistent.mpr s.consistent_verdict

namespace NetworkCheck
variable {c : NetworkCheck} {d : Directory} {v : Verdict}

theorem made_of_workBy {answer : Nat → Address → UInt16 → Probe}
    (h : (c.workBy d answer).outcome = .ok v) : v.Made := by
  unfold workBy at h
  split at h
  · cases h
  · cases h
  · cases h
    exact Signals.made_verdict _
  · cases h
    exact Signals.made_verdict _

theorem made_of_behaviourBy {answer : Nat → Address → UInt16 → Probing}
    (h : (c.behaviourBy d answer).fate = .ok (.ok v)) : v.Made := by
  unfold behaviourBy at h
  split at h
  · cases h
  · exact made_of_workBy (Except.ok.inj h)

end NetworkCheck

theorem Catalogue.makesVerdicts_of_build {net : Net} {d : Directory} {node : String} {e : CheckerEntry}
    {c : Checker} (h : (builtin net d node).build e = .ok c) : c.MakesVerdicts := by
  obtain ⟨s,i,_,rfl⟩ := build_builtin_eq_ok_iff.mp h
  exact fun n v came => NetworkCheck.made_of_behaviourBy came

theorem Retries.made_of_trial {c : Checker} (h : c.MakesVerdicts) {r : Retries} {limit start : Nat}
    {v : Verdict} (came : (r.trial limit c start).verdict = .ok v) : v.Made := by
  obtain ⟨k,tried⟩ := r.exists_tried limit c start
  rw [tried.verdict] at came
  cases fate : c.fate limit k with
  | error words =>
    rw [fate] at came
    cases came
  | ok o =>
    rw [fate] at came
    cases o with
    | ok w =>
      cases came
      exact h k _ (Checker.fate_eq_ok fate)
    | error e =>
      cases came
      exact .unknown _ _

/-- A pass of checkers that make their verdicts themselves has no others among its results. -/
theorem Pass.made_of_results {p : Pass} {start : Nat} (h : ∀ c ∈ p.checkers, c.MakesVerdicts)
    {results : Table Verdict} (came : p.results start = .ok results) {name : String} {v : Verdict}
    (found : results.find? name = some v) : v.Made := by
  have sums := p.sums_results start
  rw [came] at sums
  obtain ⟨vs,told,rfl⟩ : ∃ vs : List Verdict, (p.trialsFrom start).map Trial.verdict = vs.map .ok ∧
      results = Table.ofList ((p.checkers.map Checker.name).zip vs) := by
    cases sums with
    | whole _ told => exact ⟨_,told,rfl⟩
  rw [Table.find?_ofList] at found
  obtain ⟨before,after,split,_⟩ := List.lookup_eq_some_iff.mp found
  have mem : (name, v) ∈ before ++ (name, v) :: after := List.mem_append_right before List.mem_cons_self
  rw [← split] at mem
  have given : v ∈ vs := (List.of_mem_zip (List.mem_reverse.mp mem)).2
  have whole : Except.ok v ∈ (p.trialsFrom start).map Trial.verdict := told ▸ List.mem_map_of_mem given
  obtain ⟨t,ht,verdict⟩ := List.mem_map.mp whole
  obtain ⟨k,place⟩ := List.mem_iff_getElem?.mp ht
  obtain ⟨c,began,hc,rfl⟩ := Retries.exists_trial place
  exact Retries.made_of_trial (h c (List.mem_of_getElem? hc)) verdict

end HealthProbe
