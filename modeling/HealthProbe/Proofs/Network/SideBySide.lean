import HealthProbe.Proofs.Network.Flight
import HealthProbe.Proofs.Network.Influence

/-! # Checks that probe side by side

A check with two peers or more and a service probes all of them at once. It takes as long as the slowest
probe, that of the service included, and what it comes to hangs on what came of the probes, by their
numbers, and not on when. A limit changes this only if the slowest probe takes longer.
-/
namespace HealthProbe.NetworkCheck

variable {c : NetworkCheck} {d : Directory} {found : List Peer} {service : Address} {port : UInt16}
  {answer answer' : Nat → Address → UInt16 → Probe} {ps qs : List Probe} {peers : List Address}

def launched (peers : List Address) (service : Address) (port : UInt16)
    (answer : Nat → Address → UInt16 → Probe) : List Probe :=
  peers.mapIdx (fun i a => answer i a port) ++ [answer peers.length service port]

theorem length_launched : (launched peers service port answer).length = peers.length + 1 := by
  simp [launched]

theorem launched_ne_nil : launched peers service port answer ≠ [] := by
  simp [launched]

theorem workBy_eq_launched (answer : Nat → Address → UInt16 → Probe)
    (listed : d.peers c.spec.space c.spec.peerSelector = .ok found)
    (many : 2 ≤ (eligible c.excluded found).length)
    (served : d.addressOf c.spec.space c.spec.serviceName = .ok service)
    (addresses : (eligible c.excluded found).map Target.address = peers) :
    (c.workBy d answer).duration = duration (launched peers service c.spec.port answer) ∧
      (c.workBy d answer).outcome =
        .ok (signals (peers.mapIdx fun i a => answer i a c.spec.port) (answer peers.length service c.spec.port)).verdict := by
  have enough : ¬(eligible c.excluded found).length ≤ 1 := by omega
  have planned : c.plan d = .ok (.probes found.length (eligible c.excluded found) service) := by
    simp only [plan, listed, served, if_neg enough]
  have count : (eligible c.excluded found).length = peers.length := by
    rw [← addresses, List.length_map]
  constructor
  · simp only [workBy, planned, addresses, count, launched]
  · simp only [workBy, planned, addresses, count]

theorem signals_congr {p q : Probe} (same : ps.map Probe.failure = qs.map Probe.failure)
    (last : p.failure = q.failure) : signals ps p = signals qs q := by
  have reached (l : List Probe) : l.countP Probe.isReached = (l.map Probe.failure).countP Option.isNone := by
    rw [List.countP_map]
    rfl
  have lengths := congrArg List.length same
  simp only [List.length_map] at lengths
  simp only [signals, Probe.isReached, reached, same, lengths, last]

theorem signals_launched_congr
    (same : (launched peers service port answer').map Probe.failure =
      (launched peers service port answer).map Probe.failure) :
    signals (peers.mapIdx fun i a => answer' i a port) (answer' peers.length service port) =
      signals (peers.mapIdx fun i a => answer i a port) (answer peers.length service port) := by
  simp only [launched, List.map_append] at same
  obtain ⟨first,last⟩ := List.append_inj same (by simp)
  exact signals_congr first (by simpa using last)

structure SideBySide (c : NetworkCheck) (d : Directory) (peers : List Address) (service : Address)
    (answer : Nat → Address → UInt16 → Probe) : Prop where
  /-- However the probes take turns, they come to an end. -/
  ends : ∀ limit, Acc (fun g f => Flight.Step limit (launched peers service c.spec.port answer) f g) .departure
  /-- In whatever order they have ended then, the check has come to the same at the same instant. -/
  agrees : ∀ limit f,
    Relation.ReflTransGen (Flight.Step limit (launched peers service c.spec.port answer)) .departure f →
      f.Rests limit (launched peers service c.spec.port answer) →
        ((c.workBy d answer).under limit).outcome = f.outcome limit peers.length ∧
          ((c.workBy d answer).under limit).duration = f.clock
  slowest : (∀ p ∈ launched peers service c.spec.port answer, p.delay ≤ (c.workBy d answer).duration) ∧
    ∃ p ∈ launched peers service c.spec.port answer, p.delay = (c.workBy d answer).duration
  delays : ∀ answer', (launched peers service c.spec.port answer').map Probe.failure =
      (launched peers service c.spec.port answer).map Probe.failure →
    (c.workBy d answer').outcome = (c.workBy d answer).outcome
  cut : ∀ limit, 0 < limit →
    (((c.workBy d answer).under limit).outcome = .error (.timeout (Span.ofMillis limit)) ↔
      limit < (c.workBy d answer).duration)
  cutAt : ∀ limit, 0 < limit → limit < (c.workBy d answer).duration →
    ((c.workBy d answer).under limit).duration = limit
  inTime : ∀ limit, (c.workBy d answer).duration ≤ limit →
    (c.workBy d answer).under limit = c.workBy d answer
  unlimited : (c.workBy d answer).under 0 = c.workBy d answer

/-- Every check with two peers or more and a service works side by side. -/
theorem side_by_side (c : NetworkCheck) (d : Directory) (answer : Nat → Address → UInt16 → Probe)
    (listed : d.peers c.spec.space c.spec.peerSelector = .ok found)
    (many : 2 ≤ (eligible c.excluded found).length)
    (served : d.addressOf c.spec.space c.spec.serviceName = .ok service) :
    SideBySide c d ((eligible c.excluded found).map Target.address) service answer := by
  generalize addresses : (eligible c.excluded found).map Target.address = peers
  obtain ⟨time,comes⟩ := workBy_eq_launched answer listed many served addresses
  constructor
  · exact fun limit => Flight.acc_departure limit _
  · intro limit f course rests
    have sound := Flight.sound_of_course course
    by_cases back : f.isBack (launched peers service c.spec.port answer).length
    · have clock := Flight.clock_of_isBack sound back
      have allowed : Work.fits limit (c.workBy d answer).duration = true := by
        rw [time, ← clock]
        exact sound.allowed
      have brought := Flight.signals_of_isBack sound back
      rw [List.length_mapIdx] at brought
      rw [length_launched] at back
      rw [Work.under, if_pos allowed, Flight.outcome, if_pos back, brought]
      exact ⟨comes,time.trans clock.symm⟩
    · obtain ⟨i,p,out⟩ := Flight.not_isBack back
      obtain ⟨pos,there,late⟩ := Flight.rests_of_out sound rests out
      rw [length_launched] at back
      rw [Work.under_of_lt pos (by rwa [time]), Flight.outcome, if_neg back]
      exact ⟨rfl,there.symm⟩
  · rw [time]
    exact ⟨fun p => Flight.delay_le_duration,Flight.exists_delay_eq_duration launched_ne_nil⟩
  · intro answer' same
    rw [comes, (workBy_eq_launched answer' listed many served addresses).2, signals_launched_congr same]
  · intro limit pos
    rcases Nat.lt_or_ge limit (c.workBy d answer).duration with late | soon
    · simp [Work.under_of_lt pos late, Work.timedOut, late]
    · simp [Work.under_of_le soon, comes, Nat.not_lt.mpr soon]
  · intro limit pos late
    rw [Work.under_of_lt pos late]
  · exact fun limit soon => Work.under_of_le soon
  · exact Work.under_zero _

/-- Two peers that are reached, the second after the service has failed. -/
theorem side_by_side_threePeers :
    (eligible (forNode "dns" dnsSpec "node-1").excluded threePeers.peers).map Target.address =
        [.v4 10 0 0 2, .v4 10 0 0 2] ∧
      SideBySide (forNode "dns" dnsSpec "node-1") threePeers.directory [.v4 10 0 0 2, .v4 10 0 0 2]
        (.v4 10 0 0 9)
        fun i a _ => ⟨if i = 1 then 40 else 20, if a = .v4 10 0 0 9 then some .cancelled else none⟩ := by
  have listed : threePeers.directory.peers dnsSpec.space dnsSpec.peerSelector = .ok threePeers.peers := by
    rfl
  exact ⟨by decide,side_by_side (forNode "dns" dnsSpec "node-1") threePeers.directory _ listed (by decide)
    (by rfl)⟩

end HealthProbe.NetworkCheck
