import HealthProbe.Failure
import HealthProbe.Table
import HealthProbe.Time.Stamp
import HealthProbe.Verdict

/-! # Statuses of nodes

The status of a node has the latest result of each of its checkers, by name. Merging new verdicts
replaces the entries with their names and leaves all others as they are. A store keeps statuses by
node; whether and how long it really keeps them is its own affair.
-/
namespace HealthProbe

structure Result where
  health : Health
  code : Option String
  message : Option String
  checkedAt : Time.Stamp
  deriving DecidableEq, Repr

def Verdict.result (v : Verdict) (moment : Time.Stamp) : Result :=
  ⟨v.health, v.code?, v.message?, moment⟩

structure NodeStatus where
  node : String
  results : Table Result
  updatedAt : Option Time.Stamp
  deriving DecidableEq

namespace NodeStatus

def new (node : String) : NodeStatus := ⟨node, Table.empty, none⟩

def merge (s : NodeStatus) (verdicts : Table Verdict) (moment : Time.Stamp) : NodeStatus :=
  { s with
    results := s.results.insertAll (verdicts.entries.map fun e => (e.1, e.2.result moment))
    updatedAt := some moment }

@[simp] theorem node_merge (s : NodeStatus) (vs : Table Verdict) (t : Time.Stamp) :
    (s.merge vs t).node = s.node := rfl

theorem find?_merge (s : NodeStatus) (vs : Table Verdict) (moment : Time.Stamp) (name : String) :
    (s.merge vs moment).results.find? name =
      ((vs.find? name).map fun v => v.result moment).or (s.results.find? name) := by
  have results : (s.merge vs moment).results =
      s.results.insertAll (vs.mapValues fun v => v.result moment).entries := rfl
  rw [results, Table.find?_insertAll, Table.lookup_reverse_entries, Table.find?_mapValues]

end NodeStatus

/-- A store of statuses with states in `σ`: looking up the status of a node, and writing a status under
its node. Either may fail, and either may change the state. -/
structure Store (σ : Type) where
  get : String → σ → Except StoreFailure NodeStatus × σ
  update : NodeStatus → σ → Except StoreFailure Unit × σ

end HealthProbe
