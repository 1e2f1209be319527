import HealthProbe.Config.Basic
import HealthProbe.Engine.Work
import HealthProbe.Network.Signals

/-! # Network checks

A check looks up the peers and, if there are at least two that may take part, the service in front of
them. Then it probes all of them and the service side by side, and judges by what answered. The probes
fail for themselves; a failed lookup fails the check, and a probe that crashes takes the check with it.
-/
namespace HealthProbe

structure Directory where
  peers : String → String → Except LookupFailure (List Peer)
  addressOf : String → String → Except LookupFailure Address

def Inventory.directory (inv : Inventory) : Directory := ⟨inv.peersMatching, inv.addressOf⟩

structure Probe where
  delay : Nat
  failure : Option CheckFailure
  deriving DecidableEq, Repr

def Probe.isReached (p : Probe) : Bool := p.failure.isNone

inductive Probing
  | probe (p : Probe)
  | crash (after : Nat) (words : String)
  deriving DecidableEq, Repr

instance : Coe Probe Probing := ⟨.probe⟩

namespace Probing

/-- The probe for one who does not tell a crash from a failure. -/
def asProbe : Probing → Probe
  | probe p => p
  | crash after words => ⟨after, some (.probe words)⟩

/-- The crash that comes first, if there is one. Of several at one instant the first in the list counts. -/
def firstCrash? : List Probing → Option (Nat × String)
  | [] => none
  | probe _ :: ps => firstCrash? ps
  | crash after words :: ps =>
    match firstCrash? ps with
    | none => some (after, words)
    | some (earlier, last) => if earlier < after then some (earlier, last) else some (after, words)

end Probing

structure NetworkCheck where
  name : String
  spec : NetworkSpec
  /-- Peers on these nodes take no part. -/
  excluded : List String
  deriving DecidableEq, Repr

namespace NetworkCheck

/-- The check for a node. Peers on the node itself take no part either. -/
def forNode (name : String) (spec : NetworkSpec) (node : String) : NetworkCheck :=
  ⟨name, spec, if node ∈ spec.excludedNodes then spec.excludedNodes else spec.excludedNodes ++ [node]⟩

inductive Plan
  | tooFew (found peers : Nat)
  | probes (found : Nat) (targets : List Target) (service : Address)
  /-- The service of the peers found is not there. -/
  | noService (found peers : Nat) (e : LookupFailure)
  deriving Repr

def plan (c : NetworkCheck) (d : Directory) : Except LookupFailure Plan :=
  match d.peers c.spec.space c.spec.peerSelector with
  | .error e => .error e
  | .ok found =>
    let targets := eligible c.excluded found
    if targets.length ≤ 1 then .ok (.tooFew found.length targets.length)
    else
      match d.addressOf c.spec.space c.spec.serviceName with
      | .error e => .ok (.noService found.length targets.length e)
      | .ok service => .ok (.probes found.length targets service)

/-- The addresses to probe: those of the peers, and then the one of the service. -/
def Plan.addresses : Plan → List Address
  | probes _ targets service => targets.map Target.address ++ [service]
  | _ => []

/-- What comes of the addresses that a check probes, each with its number and the port. -/
def asked {α : Type} (c : NetworkCheck) (d : Directory) (answer : Nat → Address → UInt16 → α) : List α :=
  match c.plan d with
  | .ok p => p.addresses.mapIdx fun i a => answer i a c.spec.port
  | .error _ => []

def probed (c : NetworkCheck) (d : Directory) : List (Address × UInt16) := c.asked d fun _ => Prod.mk

def signals (peers : List Probe) (service : Probe) : Signals :=
  ⟨peers.length, peers.countP Probe.isReached, service.isReached,
    service.failure.map CheckFailure.message⟩

def foundLine (c : NetworkCheck) (found peers : Nat) : LogLine :=
  ⟨0, .debug, "检测器 " ++ c.name ++ ": 发现 " ++ toString found ++ " 个实例，其中 " ++ toString peers ++
    " 个可用"⟩

def unreachedLine? (time : Nat) (t : Target) (p : Probe) : Option LogLine :=
  p.failure.map fun e =>
    ⟨time, .debug, "实例 " ++ t.name ++ " (" ++ t.address.text ++ ") 不可达: " ++ e.message⟩

def verdictLine (c : NetworkCheck) (time : Nat) (s : Signals) : LogLine :=
  ⟨time, .info, "检测器 " ++ c.name ++ ": " ++ toString s.reached ++ "/" ++ toString s.peers ++
    " 个实例可达，聚合链路" ++ (if s.serviceReached then "可达" else "不可达") ++ "，结论 " ++
    s.verdict.health.display⟩

/-- How long probes take that run side by side. -/
def duration (probes : List Probe) : Nat := (probes.map Probe.delay).foldl max 0

/-- The work of a check, given what each of its probes comes to, by its number, its address and the port.
The probe of the service is the last. -/
def workBy (c : NetworkCheck) (d : Directory) (answer : Nat → Address → UInt16 → Probe) : Work :=
  match c.plan d with
  | .error e => ⟨0, .error (.lookup e), []⟩
  | .ok (.noService found peers e) => ⟨0, .error (.lookup e), [c.foundLine found peers]⟩
  | .ok (.tooFew found peers) =>
    let s := Signals.insufficient peers
    ⟨0, .ok s.verdict, [c.foundLine found peers, c.verdictLine 0 s]⟩
  | .ok (.probes found targets service) =>
    let peers := (targets.map Target.address).mapIdx fun i a => answer i a c.spec.port
    let last := answer targets.length service c.spec.port
    let s := signals peers last
    let time := duration (peers ++ [last])
    ⟨time, .ok s.verdict,
      c.foundLine found targets.length ::
        (targets.zip peers).filterMap (fun p => unreachedLine? time p.1 p.2) ++
        [c.verdictLine time s]⟩

/-- The work of a check whose probes of one address all come to the same. -/
def work (c : NetworkCheck) (d : Directory) (answer : Address → Probe) : Work :=
  c.workBy d fun _ a _ => answer a

/-- What a check does when some of its probes may crash. All others are given up then. -/
def behaviourBy (c : NetworkCheck) (d : Directory) (answer : Nat → Address → UInt16 → Probing) :
    Behaviour :=
  match Probing.firstCrash? (c.asked d answer) with
  | some (after, words) => .crash after words
  | none => .work (c.workBy d fun i a port => (answer i a port).asProbe)

end NetworkCheck
end HealthProbe
