import HealthProbe.Engine.Work

/-! # Counters

Every run that comes to an outcome is one event, known by the kind and the name of its checker and by
how the outcome is classified. The counters tell how often each event has happened; a listing goes by
name, health and code.
-/
namespace HealthProbe

structure Classification where
  health : Health
  code : String
  deriving DecidableEq, Repr

namespace Classification

def healthyCode : String := "Healthy"

/-- The code of a run that came to no verdict. -/
def failureCode : String := "RunError"

def of : Outcome → Classification
  | .ok v => ⟨v.health, v.code?.getD healthyCode⟩
  | .error _ => ⟨.unknown, failureCode⟩

end Classification

structure Event where
  kind : String
  name : String
  health : Health
  code : String
  deriving DecidableEq, Repr

namespace Event

def of (kind name : String) (c : Classification) : Event := ⟨kind, name, c.health, c.code⟩

def sortTexts (e : Event) : List String := [e.name, e.health.label, e.code, e.kind]

def inOrder : List String → List String → Bool
  | [], _ => true
  | _ :: _, [] => false
  | a :: as, b :: bs => if a = b then inOrder as bs else a < b

end Event

structure Counters where
  counts : List (Event × Nat)
  deriving DecidableEq, Repr

namespace Counters

def empty : Counters := ⟨[]⟩

def bump (e : Event) : List (Event × Nat) → List (Event × Nat)
  | [] => [(e, 1)]
  | (f, n) :: rest => if f = e then (f, n + 1) :: rest else (f, n) :: bump e rest

def record (c : Counters) (e : Event) : Counters := ⟨bump e c.counts⟩

def recordAll (c : Counters) (es : List Event) : Counters := es.foldl record c

def count (c : Counters) (e : Event) : Nat := (c.counts.lookup e).getD 0

def total (c : Counters) (name : String) : Nat :=
  (c.counts.filter fun r => r.1.name == name).foldr (fun r n => r.2 + n) 0

def isEmpty (c : Counters) : Bool := c.counts.isEmpty

/-- The counters in the order of their listing. -/
def listing (c : Counters) : List (Event × Nat) :=
  c.counts.mergeSort fun a b => Event.inOrder a.1.sortTexts b.1.sortTexts

theorem lookup_bump_self (e : Event) :
    ∀ rs : List (Event × Nat), (bump e rs).lookup e = some ((rs.lookup e).getD 0 + 1)
  | [] => by simp [bump]
  | (f, n) :: rest => by
    by_cases h : f = e
    · subst h
      simp [bump]
    · have h' : e ≠ f := fun eq => h eq.symm
      simp [bump, h, List.lookup_cons, beq_eq_false_iff_ne.mpr h', lookup_bump_self e rest]

theorem lookup_bump_of_ne {e f : Event} (ne : f ≠ e) :
    ∀ rs : List (Event × Nat), (bump e rs).lookup f = rs.lookup f
  | [] => by simp [bump, List.lookup_cons, beq_eq_false_iff_ne.mpr ne]
  | (g, n) :: rest => by
    by_cases h : g = e
    · subst h
      simp [bump, List.lookup_cons, beq_eq_false_iff_ne.mpr ne]
    · simp [bump, h, List.lookup_cons, lookup_bump_of_ne ne rest]

@[simp] theorem count_empty (e : Event) : empty.count e = 0 := rfl

@[simp] theorem count_record_self (c : Counters) (e : Event) :
    (c.record e).count e = c.count e + 1 := by
  simp [count, record, lookup_bump_self]

theorem count_record_of_ne (c : Counters) {e f : Event} (ne : f ≠ e) :
    (c.record e).count f = c.count f := by
  simp [count, record, lookup_bump_of_ne ne]

end Counters
end HealthProbe
