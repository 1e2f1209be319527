import HealthProbe.Proofs.Network.Outcome
import Mathlib.Data.List.Perm.Basic

/-! # What a network check does not depend on

A check of a node sees of its peers only the addresses of those that take part. Peers that do not, wherever
they stand in the inventory and whatever addresses they have, and the order of those that do, show
neither in the verdict nor in what is probed.
-/
namespace HealthProbe.NetworkCheck

variable {inv inv' : Inventory} {spec : NetworkSpec} {sel : Selector} {subject name : String}

/-! ## Probes in any order -/

theorem signals_perm {ps qs : List Probe} (h : ps.Perm qs) (service : Probe) :
    signals ps service = signals qs service := by
  simp only [signals, h.length_eq, h.countP_eq]

theorem duration_perm {ps qs : List Probe} (h : ps.Perm qs) : duration ps = duration qs := by
  refine (h.map Probe.delay).foldl_eq' ?_ 0
  intro a _ b _ longest
  omega

/-! ## Plans with the same probes -/

/-- Plans that differ at most in how many peers were found, and in the order of the probes. -/
inductive Plan.Alike : Plan → Plan → Prop
  | tooFew (found found' peers : Nat) : Alike (.tooFew found peers) (.tooFew found' peers)
  | noService (found found' peers : Nat) (e : LookupFailure) :
      Alike (.noService found peers e) (.noService found' peers e)
  | probes (found found' : Nat) {targets targets' : List Target} (service : Address)
      (same : (targets.map Target.address).Perm (targets'.map Target.address)) :
      Alike (.probes found targets service) (.probes found' targets' service)

theorem Plan.Alike.addresses {a b : Plan} (h : a.Alike b) : a.addresses.Perm b.addresses := by
  cases h with
  | tooFew => exact .refl _
  | noService => exact .refl _
  | probes _ _ service same => exact same.append_right [service]

/-- Checks with plans alike come to the same after the same time, if each address has one answer. -/
theorem Plan.Alike.work_eq {c : NetworkCheck} {d d' : Directory} {a b : Plan} (h : a.Alike b)
    (ha : c.plan d = .ok a) (hb : c.plan d' = .ok b) (answer : Address → Probe) :
    (c.work d answer).outcome = (c.work d' answer).outcome ∧
      (c.work d answer).duration = (c.work d' answer).duration := by
  simp only [work, workBy, ha, hb]
  cases h with
  | tooFew => exact ⟨rfl,rfl⟩
  | noService => exact ⟨rfl,rfl⟩
  | probes _ _ service same =>
    have probes := same.map answer
    simp only [mapIdx_const]
    exact ⟨by rw [signals_perm probes],duration_perm (probes.append_right [answer service])⟩

/-! ## Inventories with the same participants -/

theorem addresses_perm (same : (inv.participants spec sel subject).Perm
      (inv'.participants spec sel subject)) :
    ((eligible (forNode name spec subject).excluded (inv.found spec sel)).map Target.address).Perm
      ((eligible (forNode name spec subject).excluded (inv'.found spec sel)).map Target.address) := by
  rw [eligible_address, eligible_address]
  exact same.filterMap Peer.address

theorem service?_congr (services : inv.services = inv'.services) :
    inv.service? spec = inv'.service? spec := by
  rw [Inventory.service?, services, Inventory.service?]

theorem alike_plans (name : String) (parses : Selector.parse? spec.peerSelector = some sel)
    (services : inv.services = inv'.services)
    (same : (inv.participants spec sel subject).Perm (inv'.participants spec sel subject)) :
    ∃ a b, (forNode name spec subject).plan inv.directory = .ok a ∧
      (forNode name spec subject).plan inv'.directory = .ok b ∧ a.Alike b := by
  have count := same.length_eq
  rcases Nat.lt_or_ge 1 (inv.participants spec sel subject).length with many | few
  · rw [plan_of_many parses many, plan_of_many parses (count ▸ many), service?_congr services, count]
    cases inv'.service? spec with
    | none => exact ⟨_,_,rfl,rfl,.noService ..⟩
    | some s => exact ⟨_,_,rfl,rfl,.probes _ _ s.address (addresses_perm same)⟩
  · rw [plan_of_few parses few, plan_of_few parses (count ▸ few), count]
    exact ⟨_,_,rfl,rfl,.tooFew ..⟩

/-- Two lists of peers with the same participants in a check of a node, in whatever order and among
whatever others, and one list of services: the check comes to the same verdict or failure with both,
after the same time, and probes the same addresses as often. -/
theorem only_participants_matter (spec : NetworkSpec) (name subject : String) (services : List Service)
    (answer : Address → Probe) (peers peers' : List Peer)
    (same : ∀ sel, Selector.parse? spec.peerSelector = some sel →
      (peers.filter fun p => decide (p.TakesPart spec sel subject)).Perm
        (peers'.filter fun p => decide (p.TakesPart spec sel subject))) :
    ((forNode name spec subject).work (Inventory.mk peers services).directory answer).outcome =
        ((forNode name spec subject).work (Inventory.mk peers' services).directory answer).outcome ∧
      ((forNode name spec subject).work (Inventory.mk peers services).directory answer).duration =
        ((forNode name spec subject).work (Inventory.mk peers' services).directory answer).duration ∧
      ((forNode name spec subject).probed (Inventory.mk peers services).directory).Perm
        ((forNode name spec subject).probed (Inventory.mk peers' services).directory) := by
  cases parses : Selector.parse? spec.peerSelector with
  | none => simp only [work, workBy, probed, asked, plan_of_badSelector parses, List.Perm.refl, and_self]
  | some sel =>
    have participants : ((Inventory.mk peers services).participants spec sel subject).Perm
        ((Inventory.mk peers' services).participants spec sel subject) := same sel parses
    have served : (Inventory.mk peers services).services = (Inventory.mk peers' services).services := rfl
    obtain ⟨a,b,ha,hb,alike⟩ := alike_plans name parses served participants
    obtain ⟨outcome,duration⟩ := alike.work_eq ha hb answer
    refine ⟨outcome,duration,?_⟩
    simp only [probed, asked, ha, hb, mapIdx_const]
    exact alike.addresses.map _

/-- The peers of `threePeers` in another order, among others that share their addresses and the one of
their service: one that is not ready, one in another namespace, and one on the node itself. -/
def crowdedPeers : List Peer :=
  [⟨"d", "dns", "node-4", .running, false, some (.v4 10 0 0 2), .empty⟩,
   ⟨"c", "dns", "node-3", .running, true, some (.v4 10 0 0 2), .empty⟩,
   ⟨"e", "web", "node-5", .running, true, some (.v4 10 0 0 9), .empty⟩,
   ⟨"b", "dns", "node-2", .running, true, some (.v4 10 0 0 2), .empty⟩,
   ⟨"f", "dns", "node-1", .running, true, some (.v4 10 0 0 9), .empty⟩]

def dnsSpec : NetworkSpec := ⟨"dns", "", "dns", .dns, 53, "example.org", "/", 1, []⟩

theorem only_participants_matter_crowdedPeers :
    (∀ sel, Selector.parse? dnsSpec.peerSelector = some sel →
      (threePeers.peers.filter fun p => decide (p.TakesPart dnsSpec sel "node-1")).Perm
        (crowdedPeers.filter fun p => decide (p.TakesPart dnsSpec sel "node-1"))) ∧
    ((forNode "dns" dnsSpec "node-1").work (Inventory.mk crowdedPeers threePeers.services).directory
        fun a => ⟨0, if a = .v4 10 0 0 9 then some .cancelled else none⟩).outcome =
      .ok (.unhealthy "AggregateLinkFailure" "2/2 个对等实例可达，但聚合链路不可达: 检测已取消") ∧
    ((forNode "dns" dnsSpec "node-1").probed
        (Inventory.mk crowdedPeers threePeers.services).directory).Perm
      [(.v4 10 0 0 2, 53), (.v4 10 0 0 2, 53), (.v4 10 0 0 9, 53)] := by
  have same : ∀ sel, Selector.parse? dnsSpec.peerSelector = some sel →
      (threePeers.peers.filter fun p => decide (p.TakesPart dnsSpec sel "node-1")).Perm
        (crowdedPeers.filter fun p => decide (p.TakesPart dnsSpec sel "node-1")) := by
    intro sel parses
    have nothing : Selector.parse? dnsSpec.peerSelector = some ⟨[]⟩ := by rfl
    rw [nothing] at parses
    cases parses
    decide
  obtain ⟨outcome,_,probed⟩ := only_participants_matter dnsSpec "dns" "node-1" threePeers.services
    (fun a => ⟨0, if a = .v4 10 0 0 9 then some .cancelled else none⟩) threePeers.peers crowdedPeers same
  exact ⟨same,outcome.symm.trans (by rfl),probed.symm⟩

end HealthProbe.NetworkCheck
