/-! # Verdicts

What one check concludes: a health, and for anything but a healthy target a detail, made of a code for
machines and a message for people.
-/
namespace HealthProbe

inductive Health
  | healthy | unhealthy | unknown
  deriving DecidableEq, Repr, Inhabited

namespace Health

/-- The name in stored and counted data. -/
def label : Health → String
  | healthy => "healthy"
  | unhealthy => "unhealthy"
  | unknown => "unknown"

def ofLabel? : String → Option Health
  | "healthy" => some healthy
  | "unhealthy" => some unhealthy
  | "unknown" => some unknown
  | _ => none

/-- The word shown to people. -/
def display : Health → String
  | healthy => "健康"
  | unhealthy => "不健康"
  | unknown => "未知"

@[simp] theorem ofLabel?_label (h : Health) : ofLabel? h.label = some h := by
  cases h <;> rfl

theorem label_injective {a b : Health} (h : a.label = b.label) : a = b := by
  have e := congrArg ofLabel? h
  simpa using e

end Health

structure Detail where
  code : String
  message : String
  deriving DecidableEq, Repr

structure Verdict where
  health : Health
  detail : Option Detail
  deriving DecidableEq, Repr

namespace Verdict

def healthy : Verdict := ⟨.healthy, none⟩

def unhealthy (code message : String) : Verdict := ⟨.unhealthy, some ⟨code, message⟩⟩

def unknown (code message : String) : Verdict := ⟨.unknown, some ⟨code, message⟩⟩

def code? (v : Verdict) : Option String := v.detail.map Detail.code

def message? (v : Verdict) : Option String := v.detail.map Detail.message

/-- A detail goes with everything but a healthy target, and only with that. -/
def Consistent (v : Verdict) : Prop := v.detail = none ↔ v.health = .healthy

theorem consistent_healthy : healthy.Consistent := by simp [Consistent, healthy]

theorem consistent_unhealthy (c m : String) : (unhealthy c m).Consistent := by
  simp [Consistent, unhealthy]

theorem consistent_unknown (c m : String) : (unknown c m).Consistent := by
  simp [Consistent, unknown]

end Verdict
end HealthProbe
