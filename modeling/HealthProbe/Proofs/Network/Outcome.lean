import HealthProbe.Network.Check
import Mathlib.Data.List.Basic
import Mathlib.Tactic.Tauto

/-! # Outcomes of network checks

What a check of a node comes to, by the peers that take part in it, the service in front of them and the
answers to its probes, each probe with an answer of its own. The order of the lookups matters: too few
peers end a check before the service is looked up, and only lookups make it fail.
-/
namespace HealthProbe

def Peer.TakesPart (spec : NetworkSpec) (sel : Selector) (subject : String) (p : Peer) : Prop :=
  p.space = spec.space ∧ (∀ d ∈ sel.demands, p.labels.find? d.1 = some d.2) ∧ p.phase = .running ∧
    p.ready = true ∧ p.address.isSome = true ∧ p.node ∉ spec.excludedNodes ∧ p.node ≠ subject

instance (spec : NetworkSpec) (sel : Selector) (subject : String) :
    DecidablePred (Peer.TakesPart spec sel subject) := fun _ => inferInstanceAs (Decidable (_ ∧ _))

def Service.Serves (spec : NetworkSpec) (s : Service) : Prop :=
  s.space = spec.space ∧ s.name = spec.serviceName

instance (spec : NetworkSpec) : DecidablePred (Service.Serves spec) :=
  fun _ => inferInstanceAs (Decidable (_ ∧ _))

namespace Inventory

def participants (inv : Inventory) (spec : NetworkSpec) (sel : Selector) (subject : String) :
    List Peer := inv.peers.filter fun p => decide (p.TakesPart spec sel subject)

def found (inv : Inventory) (spec : NetworkSpec) (sel : Selector) : List Peer :=
  inv.peers.filter fun p => p.space == spec.space && sel.admits p.labels

def service? (inv : Inventory) (spec : NetworkSpec) : Option Service :=
  inv.services.find? fun s => decide (s.Serves spec)

end Inventory

namespace NetworkCheck

variable {inv : Inventory} {spec : NetworkSpec} {sel : Selector} {subject name : String}

/-! ## Participants -/

theorem mem_excluded {node : String} :
    node ∈ (forNode name spec subject).excluded ↔ node ∈ spec.excludedNodes ∨ node = subject := by
  unfold forNode
  split
  · rename_i h
    constructor
    · exact Or.inl
    · rintro (hn | rfl)
      · exact hn
      · exact h
  · simp

theorem admits_iff (labels : Table String) :
    sel.admits labels = true ↔ ∀ d ∈ sel.demands, labels.find? d.1 = some d.2 := by
  simp [Selector.admits]

theorem target?_eq (p : Peer) :
    (if (p.space == spec.space && sel.admits p.labels) = true then
        p.target? (forNode name spec subject).excluded else none) =
      if p.TakesPart spec sel subject then p.address.map fun a => ⟨p.name, a⟩ else none := by
  have eligible : (p.space == spec.space && sel.admits p.labels) = true ∧
      (p.phase = .running ∧ p.ready = true ∧ p.node ∉ (forNode name spec subject).excluded) ∧
        p.address.isSome = true ↔ p.TakesPart spec sel subject := by
    simp only [Bool.and_eq_true, beq_iff_eq, admits_iff, mem_excluded, Peer.TakesPart, not_or]
    tauto
  unfold Peer.target?
  cases ha : p.address with
  | none => simp
  | some a =>
    by_cases found : (p.space == spec.space && sel.admits p.labels) = true
    · by_cases fit : p.phase = .running ∧ p.ready = true ∧ p.node ∉ (forNode name spec subject).excluded
      · rw [if_pos found, if_pos fit, if_pos (eligible.mp ⟨found,fit,by simp [ha]⟩)]
      · rw [if_pos found, if_neg fit, if_neg fun h => fit (eligible.mpr h).2.1]
    · rw [if_neg found, if_neg fun h => found (eligible.mpr h).1]

theorem eligible_eq :
    eligible (forNode name spec subject).excluded (inv.found spec sel) =
      (inv.participants spec sel subject).filterMap fun p => p.address.map fun a => ⟨p.name, a⟩ := by
  rw [eligible, Inventory.found, Inventory.participants, List.filterMap_filter, List.filterMap_filter]
  refine List.filterMap_congr fun p _ => ?_
  simpa using target?_eq p

theorem eligible_address :
    (eligible (forNode name spec subject).excluded (inv.found spec sel)).map Target.address =
      (inv.participants spec sel subject).filterMap Peer.address := by
  rw [eligible_eq, List.map_filterMap]
  refine List.filterMap_congr fun p _ => ?_
  cases p.address <;> rfl

/-- Every participant has an address. -/
theorem length_addresses :
    ((inv.participants spec sel subject).filterMap Peer.address).length =
      (inv.participants spec sel subject).length := by
  rw [List.length_filterMap_eq_countP, List.countP_eq_length]
  intro p hp
  have part : p.TakesPart spec sel subject := of_decide_eq_true (List.mem_filter.mp hp).2
  exact part.2.2.2.2.1

theorem length_eligible :
    (eligible (forNode name spec subject).excluded (inv.found spec sel)).length =
      (inv.participants spec sel subject).length := by
  have addresses := congrArg List.length (@eligible_address inv spec sel subject name)
  rwa [List.length_map, length_addresses] at addresses

/-! ## Plans -/

theorem spec_forNode : (forNode name spec subject).spec = spec := rfl

theorem peers_directory (inv : Inventory) (spec : NetworkSpec) :
    inv.directory.peers spec.space spec.peerSelector =
      match Selector.parse? spec.peerSelector with
      | some sel => .ok (inv.found spec sel)
      | none => .error (.badSelector spec.peerSelector) := by
  simp only [Inventory.directory, Inventory.peersMatching, Selector.parse]
  cases Selector.parse? spec.peerSelector <;> rfl

theorem addressOf_directory (inv : Inventory) (spec : NetworkSpec) :
    inv.directory.addressOf spec.space spec.serviceName =
      match inv.service? spec with
      | some s => .ok s.address
      | none => .error (.noService spec.space spec.serviceName) := by
  have serves : (fun s : Service => s.space == spec.space && s.name == spec.serviceName) =
      fun s => decide (s.Serves spec) := by
    funext s
    rw [Bool.eq_iff_iff, decide_eq_true_iff]
    simp [Service.Serves]
  rw [Inventory.service?, ← serves]
  rfl

theorem plan_of_badSelector (h : Selector.parse? spec.peerSelector = none) :
    (forNode name spec subject).plan inv.directory = .error (.badSelector spec.peerSelector) := by
  simp only [plan, spec_forNode, peers_directory, h]

theorem plan_of_few (h : Selector.parse? spec.peerSelector = some sel)
    (few : (inv.participants spec sel subject).length ≤ 1) :
    (forNode name spec subject).plan inv.directory =
      .ok (.tooFew (inv.found spec sel).length (inv.participants spec sel subject).length) := by
  simp only [plan, spec_forNode, peers_directory, h, length_eligible, if_pos few]

theorem plan_of_many (h : Selector.parse? spec.peerSelector = some sel)
    (many : 1 < (inv.participants spec sel subject).length) :
    (forNode name spec subject).plan inv.directory =
      match inv.service? spec with
      | some s =>
        .ok (.probes (inv.found spec sel).length
          (eligible (forNode name spec subject).excluded (inv.found spec sel)) s.address)
      | none =>
        .ok (.noService (inv.found spec sel).length (inv.participants spec sel subject).length
          (.noService spec.space spec.serviceName)) := by
  simp only [plan, spec_forNode, peers_directory, h, length_eligible, if_neg (Nat.not_le.mpr many),
    addressOf_directory]
  cases inv.service? spec <;> rfl

theorem service?_eq_none : inv.service? spec = none ↔ ∀ s ∈ inv.services, ¬ s.Serves spec := by
  simp [Inventory.service?]

/-! ## Conclusions -/

structure Concludes (outcome : Outcome) (peers reached : Nat) (service : Option CheckFailure) :
    Prop where
  healthy : service = none → 0 < reached → outcome = .ok .healthy
  noPeer : service = none → reached = 0 →
    outcome = .ok (.unhealthy "PeerConnectivityFailure"
      ("聚合链路可达，但 " ++ toString peers ++ " 个对等实例均不可达"))
  noService : ∀ e, service = some e → 0 < reached →
    outcome = .ok (.unhealthy "AggregateLinkFailure"
      (toString reached ++ "/" ++ toString peers ++ " 个对等实例可达，但聚合链路不可达: " ++ e.message))
  nothing : ∀ e, service = some e → reached = 0 →
    outcome = .ok (.unhealthy "CompleteFailure"
      (toString peers ++ " 个对等实例与聚合链路均不可达: " ++ e.message))

theorem concludes_signals {probes : List Probe} (many : 1 < probes.length) (service : Probe) :
    Concludes (.ok (signals probes service).verdict) probes.length (probes.countP Probe.isReached)
      service.failure := by
  have enough : ¬ probes.length ≤ 1 := Nat.not_le.mpr many
  constructor
  · intro answered pos
    simp [signals, Signals.verdict, Probe.isReached, enough, answered, pos]
  · intro answered zero
    simp [signals, Signals.verdict, Probe.isReached, enough, answered, zero, Signals.peerCode]
  · intro e failed pos
    simp [signals, Signals.verdict, Probe.isReached, enough, failed, pos, Signals.serviceCode,
      Signals.serviceReason]
  · intro e failed zero
    simp [signals, Signals.verdict, Probe.isReached, enough, failed, zero, Signals.completeCode,
      Signals.serviceReason]

theorem mapIdx_const {α β : Type} (f : α → β) (as : List α) : as.mapIdx (fun _ => f) = as.map f := by
  induction as with
  | nil => rfl
  | cons a as ih => rw [List.mapIdx_cons, List.map_cons, ih]

/-- What a check of a node comes to and which addresses it probes, as to the inventory and the answer
to each of its probes. -/
structure Decided (inv : Inventory) (spec : NetworkSpec) (subject : String)
    (answer : Nat → Address → UInt16 → Probe) (outcome : Outcome) (probed : List (Address × UInt16)) :
    Prop where
  badSelector : outcome = .error (.lookup (.badSelector spec.peerSelector)) ↔
    Selector.parse? spec.peerSelector = none
  tooFew : ∀ sel, Selector.parse? spec.peerSelector = some sel →
    (inv.participants spec sel subject).length ≤ 1 →
      outcome = .ok (.unknown "InsufficientPeers" ("insufficient peers for conclusive test: 仅发现 " ++
        toString (inv.participants spec sel subject).length ++ " 个可用实例")) ∧ probed = []
  noService : ∀ sel, Selector.parse? spec.peerSelector = some sel →
    1 < (inv.participants spec sel subject).length →
      (outcome = .error (.lookup (.noService spec.space spec.serviceName)) ↔
        ∀ s ∈ inv.services, ¬ s.Serves spec)
  probes : ∀ sel s, Selector.parse? spec.peerSelector = some sel →
    1 < (inv.participants spec sel subject).length → inv.service? spec = some s →
      probed = ((inv.participants spec sel subject).filterMap Peer.address ++ [s.address]).map
        (fun a => (a, spec.port)) ∧
      Concludes outcome (inv.participants spec sel subject).length
        ((((inv.participants spec sel subject).filterMap Peer.address).mapIdx fun i a =>
          answer i a spec.port).countP Probe.isReached)
        (answer (inv.participants spec sel subject).length s.address spec.port).failure
  /-- Only lookups fail a check, and then nothing was probed. -/
  failures : ∀ e, outcome = .error e →
    probed = [] ∧ (e = .lookup (.badSelector spec.peerSelector) ∨
      e = .lookup (.noService spec.space spec.serviceName))

/-! ## The four ways of a check -/

variable {answer : Nat → Address → UInt16 → Probe}

theorem decided_of_badSelector (h : Selector.parse? spec.peerSelector = none) :
    Decided inv spec subject answer ((forNode name spec subject).workBy inv.directory answer).outcome
      ((forNode name spec subject).probed inv.directory) := by
  have other {sel : Selector} (hs : Selector.parse? spec.peerSelector = some sel) : False := by
    rw [h] at hs
    cases hs
  simp only [workBy, probed, asked, plan_of_badSelector h]
  constructor
  · exact ⟨fun _ => h,fun _ => rfl⟩
  · exact fun sel hs => (other hs).elim
  · exact fun sel hs => (other hs).elim
  · exact fun sel s hs => (other hs).elim
  · intro e he
    cases he
    exact ⟨rfl,Or.inl rfl⟩

theorem decided_of_few (h : Selector.parse? spec.peerSelector = some sel)
    (few : (inv.participants spec sel subject).length ≤ 1) :
    Decided inv spec subject answer ((forNode name spec subject).workBy inv.directory answer).outcome
      ((forNode name spec subject).probed inv.directory) := by
  have verdict : (Signals.insufficient (inv.participants spec sel subject).length).verdict =
      .unknown "InsufficientPeers" ("insufficient peers for conclusive test: 仅发现 " ++
        toString (inv.participants spec sel subject).length ++ " 个可用实例") := if_pos few
  simp only [workBy, probed, asked, plan_of_few h few, verdict]
  constructor
  · simp [h]
  · intro sel' hs _
    obtain rfl := Option.some.inj (h.symm.trans hs)
    exact ⟨rfl,rfl⟩
  · intro sel' hs many
    obtain rfl := Option.some.inj (h.symm.trans hs)
    omega
  · intro sel' s hs many
    obtain rfl := Option.some.inj (h.symm.trans hs)
    omega
  · intro e he
    cases he

theorem decided_of_noService (h : Selector.parse? spec.peerSelector = some sel)
    (many : 1 < (inv.participants spec sel subject).length) (absent : inv.service? spec = none) :
    Decided inv spec subject answer ((forNode name spec subject).workBy inv.directory answer).outcome
      ((forNode name spec subject).probed inv.directory) := by
  simp only [workBy, probed, asked, plan_of_many h many, absent]
  constructor
  · simp [h]
  · intro sel' hs few
    obtain rfl := Option.some.inj (h.symm.trans hs)
    omega
  · intro sel' hs _
    exact ⟨fun _ => service?_eq_none.mp absent,fun _ => rfl⟩
  · intro sel' s hs _ there
    rw [absent] at there
    cases there
  · intro e he
    cases he
    exact ⟨rfl,Or.inr rfl⟩

theorem decided_of_service {s : Service} (h : Selector.parse? spec.peerSelector = some sel)
    (many : 1 < (inv.participants spec sel subject).length) (there : inv.service? spec = some s) :
    Decided inv spec subject answer ((forNode name spec subject).workBy inv.directory answer).outcome
      ((forNode name spec subject).probed inv.directory) := by
  let peers := ((inv.participants spec sel subject).filterMap Peer.address).mapIdx fun i a =>
    answer i a spec.port
  have count : peers.length = (inv.participants spec sel subject).length := by
    rw [List.length_mapIdx, length_addresses]
  have concludes := concludes_signals (count ▸ many)
    (answer (inv.participants spec sel subject).length s.address spec.port)
  rw [count] at concludes
  simp only [workBy, probed, asked, plan_of_many h many, there, Plan.addresses, eligible_address,
    length_eligible, spec_forNode, mapIdx_const]
  constructor
  · simp [h]
  · intro sel' hs few
    obtain rfl := Option.some.inj (h.symm.trans hs)
    omega
  · intro sel' hs _
    simp only [reduceCtorEq, false_iff]
    intro absent
    rw [service?_eq_none.mpr absent] at there
    cases there
  · intro sel' s' hs _ there'
    obtain rfl := Option.some.inj (h.symm.trans hs)
    rw [there] at there'
    cases there'
    exact ⟨rfl,concludes⟩
  · intro e he
    cases he

/-- Every check comes to what its inventory and the answers to its probes decide. -/
theorem decided (inv : Inventory) (spec : NetworkSpec) (name subject : String)
    (answer : Nat → Address → UInt16 → Probe) :
    Decided inv spec subject answer ((forNode name spec subject).workBy inv.directory answer).outcome
      ((forNode name spec subject).probed inv.directory) := by
  cases h : Selector.parse? spec.peerSelector with
  | none => exact decided_of_badSelector h
  | some sel =>
    rcases Nat.lt_or_ge 1 (inv.participants spec sel subject).length with many | few
    · cases hs : inv.service? spec with
      | none => exact decided_of_noService h many hs
      | some s => exact decided_of_service h many hs
    · exact decided_of_few h few

def threePeers : Inventory :=
  ⟨[⟨"a", "dns", "node-1", .running, true, some (.v4 10 0 0 1), .empty⟩,
    ⟨"b", "dns", "node-2", .running, true, some (.v4 10 0 0 2), .empty⟩,
    ⟨"c", "dns", "node-3", .running, true, some (.v4 10 0 0 2), .empty⟩],
   [⟨"dns", "dns", .v4 10 0 0 9⟩]⟩

example : ((forNode "dns" ⟨"dns", "", "dns", .dns, 53, "example.org", "/", 1, []⟩ "node-1").workBy
      threePeers.directory fun i _ _ => ⟨0, if i = 0 then none else some .cancelled⟩).outcome =
    .ok (.unhealthy "AggregateLinkFailure" "1/2 个对等实例可达，但聚合链路不可达: 检测已取消") := by
  rfl

end NetworkCheck
end HealthProbe
