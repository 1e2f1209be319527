import HealthProbe.Catalogue
import HealthProbe.Proofs.Last
import Mathlib.Data.List.Induction

/-! # What a catalogue remembers of its registrations

Kinds are registered one after the other, and one of them may be registered again. All that can be asked of a
catalogue is told by its history: which kinds were registered, and for each of them how its checkers were
to be made when it was registered last.
-/
namespace HealthProbe

inductive Registration
  | own (kind : String) (make : Maker)
  | builtin (net : Net) (d : Directory) (node : String)

namespace Registration

def kind : Registration → String
  | own kind _ => kind
  | builtin .. => networkKind

def make : Registration → Maker
  | own _ make => make
  | builtin net d node => networkMaker net d node

def Latest (history : List Registration) (kind : String) (r : Registration) : Prop :=
  ∃ before after, history = before ++ r :: after ∧ r.kind = kind ∧ ∀ s ∈ after, s.kind ≠ kind

def latest? (history : List Registration) (kind : String) : Option Registration :=
  last? (·.kind == kind) history

variable {history : List Registration} {kind : String} {r : Registration}

theorem latest?_eq_some_iff : latest? history kind = some r ↔ Latest history kind r := by
  simp only [latest?, last?_eq_some_iff, Latest, beq_iff_eq, beq_eq_false_iff_ne]

theorem latest?_eq_none_iff : latest? history kind = none ↔ ∀ r ∈ history, r.kind ≠ kind := by
  simp only [latest?, last?_eq_none_iff, beq_eq_false_iff_ne]

theorem isSome_latest?_iff : (latest? history kind).isSome = true ↔ ∃ r ∈ history, r.kind = kind := by
  simp only [latest?, isSome_last?_iff, beq_iff_eq]

end Registration

namespace Catalogue

def register (k : Catalogue) : Registration → Catalogue
  | .own kind make => k.add kind make
  | .builtin net d node => k.withBuiltin net d node

def registered (history : List Registration) : Catalogue := history.foldl register empty

structure Remembers (k : Catalogue) (history : List Registration) : Prop where
  build : ∀ e r, Registration.Latest history e.kind r → k.build e =
    match r.make e with
    | .ok c => .ok c
    | .error reason => .error (.rejected e.name e.kind reason)
  unknown : ∀ e kind, k.build e = .error (.unknownKind kind) ↔
    kind = e.kind ∧ ∀ r ∈ history, r.kind ≠ e.kind
  contains : ∀ kind, k.contains kind = true ↔ ∃ r ∈ history, r.kind = kind
  ascending : k.kinds.Pairwise (· < ·)
  kinds : ∀ kind, kind ∈ k.kinds ↔ ∃ r ∈ history, r.kind = kind

/-- A registration decides over its own kind and leaves the others. -/
theorem find?_makers_register (k : Catalogue) (r : Registration) (kind : String) :
    (k.register r).makers.find? kind = if r.kind = kind then some r.make else k.makers.find? kind := by
  have added : (k.register r).makers = k.makers.insert r.kind r.make := by
    cases r <;> rfl
  rw [added]
  split
  · rename_i same
    rw [← same, Table.find?_insert_self]
  · rename_i other
    exact Table.find?_insert_of_ne _ _ (Ne.symm other)

theorem find?_makers_registered (history : List Registration) (kind : String) :
    (registered history).makers.find? kind = (Registration.latest? history kind).map Registration.make := by
  induction history using List.reverseRecOn with
  | nil => rfl
  | append_singleton history r ih =>
    have step : registered (history ++ [r]) = (registered history).register r := by
      simp [registered]
    rw [step, find?_makers_register, Registration.latest?, last?_concat, ih]
    by_cases same : r.kind = kind
    · simp [same]
    · simp [same, Registration.latest?]

/-- Whatever was registered, in whatever order, the catalogue answers from the last registration of each
kind. -/
theorem registered_remembers (history : List Registration) : (registered history).Remembers history := by
  have known (kind : String) :
      ((registered history).makers.find? kind).isSome = true ↔ ∃ r ∈ history, r.kind = kind := by
    rw [find?_makers_registered, Option.isSome_map, Registration.isSome_latest?_iff]
  have build (e : CheckerEntry) (r : Registration) (last : Registration.Latest history e.kind r) :
      (registered history).build e =
        match r.make e with
        | .ok c => .ok c
        | .error reason => .error (.rejected e.name e.kind reason) := by
    rw [Catalogue.build, find?_makers_registered, Registration.latest?_eq_some_iff.mpr last]
    rfl
  refine ⟨build,?unknown,known,List.pairwise_map.mpr (registered history).makers.sorted,?kinds⟩
  case kinds => exact fun kind => Table.mem_names_iff.trans (known kind)
  case unknown =>
    intro e kind
    cases latest : Registration.latest? history e.kind with
    | none =>
      have never := Registration.latest?_eq_none_iff.mp latest
      have failed : (registered history).build e = .error (.unknownKind e.kind) := by
        rw [Catalogue.build, find?_makers_registered, latest]
        rfl
      rw [failed, and_iff_left never, Except.error.injEq, BuildFailure.unknownKind.injEq, eq_comm]
    | some r =>
      have last := Registration.latest?_eq_some_iff.mp latest
      rw [build e r last]
      constructor
      · cases r.make e <;> rintro ⟨⟩
      · rintro ⟨_,never⟩
        obtain ⟨before,after,rfl,same,_⟩ := last
        exact absurd same (never r (by simp))

end Catalogue
end HealthProbe
