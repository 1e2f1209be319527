import HealthProbe.Address
import HealthProbe.Peers.Selector

/-! # Peers and services

An inventory lists the peers that could answer a probe and the services in front of them. A peer is
eligible when it is running, ready, has an address, and is on none of the nodes that are left out.
-/
namespace HealthProbe

inductive Phase
  | pending | running | succeeded | failed | unknown
  deriving DecidableEq, Repr

structure Peer where
  name : String
  /-- The namespace. -/
  space : String
  node : String
  phase : Phase
  ready : Bool
  address : Option Address
  labels : Table String
  deriving DecidableEq

structure Service where
  name : String
  space : String
  address : Address
  deriving DecidableEq, Repr

structure Inventory where
  peers : List Peer
  services : List Service
  deriving DecidableEq

structure Target where
  name : String
  address : Address
  deriving DecidableEq, Repr

def Phase.label : Phase → String
  | pending => "pending"
  | running => "running"
  | succeeded => "succeeded"
  | failed => "failed"
  | unknown => "unknown"

def Phase.ofLabel? : String → Option Phase
  | "pending" => some pending
  | "running" => some running
  | "succeeded" => some succeeded
  | "failed" => some failed
  | "unknown" => some unknown
  | _ => none

@[simp] theorem Phase.ofLabel?_label (p : Phase) : ofLabel? p.label = some p := by
  cases p <;> rfl

def Peer.target? (excluded : List String) (p : Peer) : Option Target :=
  if p.phase = .running ∧ p.ready = true ∧ p.node ∉ excluded then
    p.address.map fun a => ⟨p.name, a⟩
  else none

def eligible (excluded : List String) (peers : List Peer) : List Target :=
  peers.filterMap (Peer.target? excluded)

namespace Inventory

def empty : Inventory := ⟨[], []⟩

def peersMatching (inv : Inventory) (space selector : String) : Except LookupFailure (List Peer) :=
  match Selector.parse selector with
  | .error e => .error e
  | .ok sel => .ok (inv.peers.filter fun p => p.space == space && sel.admits p.labels)

/-- The address of the first service with a name in a namespace. -/
def addressOf (inv : Inventory) (space name : String) : Except LookupFailure Address :=
  match inv.services.find? fun s => s.space == space && s.name == name with
  | some s => .ok s.address
  | none => .error (.noService space name)

end Inventory
end HealthProbe
