import HealthProbe.Proofs.Catalogue.Building
import HealthProbe.Proofs.Config.Acceptance
import HealthProbe.Proofs.Dns.Deciding

/-! # Deadlines of probes

The deadline of a query is the instant at which it went out and the time limit of its checker. An exchange
never lasts beyond it. But the clock ends, and a limit is accepted if it is not zero, however long it is: so
there are accepted configurations with probes that have no deadline, and those crash.
-/
namespace HealthProbe

namespace Dns
variable {id : UInt16} {n : DomainName} {target : String} {deadline now limit : Nat} {seconds : UInt64}
  {answer : Except Refusal (List Datagram)}

/-! ## Within the limit -/

theorem snd_awaitFrom_le (started : now ≤ deadline) (ds : List Datagram) :
    (awaitFrom id deadline now ds).2 ≤ deadline := by
  induction ds generalizing now with
  | nil =>
    dsimp only [awaitFrom]
    omega
  | cons d ds ih =>
    rw [awaitFrom]
    split
    · dsimp only
      omega
    · rename_i inTime
      have arrived : max now d.time ≤ deadline := by omega
      split
      · exact arrived
      · exact ih arrived
      · exact arrived

theorem snd_exchange_le (id : UInt16) (n : DomainName) (target : String) (limit : Nat)
    (answer : Except Refusal (List Datagram)) : (exchange id n target limit answer).2 ≤ limit := by
  unfold exchange
  split
  · exact Nat.zero_le _
  cases answer with
  | ok ds => exact snd_awaitFrom_le (Nat.zero_le _) ds
  | error r =>
    dsimp only
    split
    · exact Nat.le_refl _
    · rename_i inTime
      exact Nat.not_lt.mp inTime

/-! ## On the clock -/

theorem deadline?_eq_none_iff : deadline? now limit = none ↔ clockEnd ≤ now + limit := by
  simp [deadline?]

theorem deadline?_eq_some (h : now + limit < clockEnd) : deadline? now limit = some (now + limit) :=
  if_pos h

theorem onClock_seconds : onClock (1000 * now + 1000 * limit) = (deadline? now limit).isSome := by
  rw [Bool.eq_iff_iff, onClock_iff, deadline?]
  split <;> simp only [Option.isSome_some, Option.isSome_none, Bool.false_eq_true, iff_true, iff_false] <;>
    omega

theorem exchangeAt_of_deadline (h : deadline? now seconds.toNat = some deadline) :
    exchangeAt now id n target seconds answer =
      .ok (exchange id n target (1000 * seconds.toNat) answer) := by
  refine exchangeFrom_of_onClock (onClock_iff.mp ?_)
  rw [onClock_seconds, h]
  rfl

theorem exchangeAt_eq_error_iff {words : String} : exchangeAt now id n target seconds answer = .error words ↔
    words = noDeadline ∧ n.size < DomainName.maxSize ∧ waits answer = true ∧
      clockEnd ≤ now + seconds.toNat := by
  rw [← deadline?_eq_none_iff, exchangeAt, exchangeFrom, onClock_seconds, write_query]
  by_cases short : n.size < DomainName.maxSize <;> cases waits answer <;>
    cases deadline? now seconds.toNat <;> simp [short, eq_comm]

end Dns

/-! ## Other limits -/

def NetworkSpec.withProbeTimeout (s : NetworkSpec) (seconds : UInt64) : NetworkSpec :=
  { s with probeTimeout := seconds }

def CheckerEntry.withProbeTimeout (e : CheckerEntry) (seconds : UInt64) : CheckerEntry :=
  { e with network := e.network.map (·.withProbeTimeout seconds) }

def Config.withProbeTimeout (c : Config) (seconds : UInt64) : Config :=
  { c with checkers := c.checkers.map (·.withProbeTimeout seconds) }

theorem Config.Acceptable.withProbeTimeout {c : Config} (h : c.Acceptable) {seconds : UInt64}
    (ne : seconds ≠ 0) : (c.withProbeTimeout seconds).Acceptable where
  node := h.node
  attempts := h.attempts
  level := h.level
  filled := mt List.map_eq_nil_iff.mp h.filled
  names := List.forall_mem_map.mpr h.names
  distinct := by
    rw [Config.withProbeTimeout, List.map_map]
    exact h.distinct
  kinds := List.forall_mem_map.mpr h.kinds
  network := by
    refine List.forall_mem_map.mpr fun e he kind => ?_
    obtain ⟨s,network,port,_,service⟩ := h.network e he kind
    exact ⟨s.withProbeTimeout seconds,by rw [CheckerEntry.withProbeTimeout, network]; rfl,port,ne,service⟩

theorem NetworkSpec.inquiry_eq_dns_iff {s : NetworkSpec} {n : DomainName} {seconds : UInt64} :
    s.inquiry = .ok (.dns n seconds) ↔
      s.protocol = .dns ∧ DomainName.ofText s.queryName = .ok n ∧ s.probeTimeout = seconds := by
  rw [NetworkSpec.inquiry]
  cases protocol : s.protocol with
  | http => simp
  | dns => cases DomainName.ofText s.queryName <;> simp

theorem CheckerEntry.Inquires.withProbeTimeout {e : CheckerEntry} {s : NetworkSpec} {n : DomainName}
    {seconds : UInt64} (h : e.Inquires s (.dns n seconds)) (other : UInt64) :
    (e.withProbeTimeout other).Inquires (s.withProbeTimeout other) (.dns n other) := by
  obtain ⟨protocol,named,_⟩ := NetworkSpec.inquiry_eq_dns_iff.mp h.inquiry
  refine ⟨h.kind,?_,NetworkSpec.inquiry_eq_dns_iff.mpr ⟨protocol,named,rfl⟩⟩
  rw [CheckerEntry.withProbeTimeout, h.network]
  rfl

/-! ## Accepted limits -/

namespace Dns

/-- Whatever happens to a query that goes out at a second of the clock, it has a later deadline and its
exchange is over by then. -/
def KeepsTime (now : Nat) (n : DomainName) (seconds : UInt64) : Prop :=
  ∃ deadline, deadline? now seconds.toNat = some deadline ∧ now < deadline ∧
    ∀ id target answer,
      exchangeAt now id n target seconds answer =
        .ok (exchange id n target (1000 * seconds.toNat) answer) ∧
      1000 * now + (exchange id n target (1000 * seconds.toNat) answer).2 ≤ 1000 * deadline

def RunsOut (now : Nat) (n : DomainName) (seconds : UInt64) : Prop :=
  deadline? now seconds.toNat = none ∧
    ∀ id target answer, n.size < DomainName.maxSize → waits answer = true →
      exchangeAt now id n target seconds answer = .error noDeadline

theorem keepsTime_of_lt {now : Nat} {n : DomainName} {seconds : UInt64} (positive : seconds ≠ 0)
    (inside : now + seconds.toNat < clockEnd) : KeepsTime now n seconds := by
  have later : seconds.toNat ≠ 0 := fun zero => positive (UInt64.toNat_inj.mp zero)
  refine ⟨now + seconds.toNat,deadline?_eq_some inside,by omega,fun id target answer => ?_⟩
  have ended := snd_exchange_le id n target (1000 * seconds.toNat) answer
  exact ⟨exchangeAt_of_deadline (deadline?_eq_some inside),by omega⟩

theorem runsOut_of_le {now : Nat} {n : DomainName} {seconds : UInt64}
    (outside : clockEnd ≤ now + seconds.toNat) : RunsOut now n seconds :=
  ⟨deadline?_eq_none_iff.mpr outside,fun _ _ _ short waiting =>
    exchangeAt_eq_error_iff.mpr ⟨rfl,short,waiting,outside⟩⟩

end Dns

/-- A network checker of an accepted configuration keeps to its deadlines as long as the clock gets that far,
and no longer. No limit is too long to be accepted in its place, so there are accepted configurations whose
queries have a deadline at no instant. -/
theorem Config.deadlines_of_accepted {c : Config} {e : CheckerEntry} {s : NetworkSpec} {n : DomainName}
    {seconds : UInt64} (accepted : c.validated = .ok c) (entry : e ∈ c.checkers)
    (inquires : e.Inquires s (.dns n seconds)) :
    s.probeTimeout = seconds ∧
    (∀ now, now + seconds.toNat < Dns.clockEnd → Dns.KeepsTime now n seconds) ∧
    (∀ now, Dns.clockEnd ≤ now + seconds.toNat → Dns.RunsOut now n seconds) ∧
    ∀ longer, longer ≠ 0 →
      (c.withProbeTimeout longer).validated = .ok (c.withProbeTimeout longer) ∧
      e.withProbeTimeout longer ∈ (c.withProbeTimeout longer).checkers ∧
      (e.withProbeTimeout longer).Inquires (s.withProbeTimeout longer) (.dns n longer) ∧
      (Dns.clockEnd ≤ longer.toNat → ∀ now, Dns.RunsOut now n longer) := by
  have acceptable := ((c.validated_iff.1 c).mp accepted).1
  obtain ⟨_,_,rfl⟩ := NetworkSpec.inquiry_eq_dns_iff.mp inquires.inquiry
  have positive : s.probeTimeout ≠ 0 := by
    obtain ⟨s',network,_,timeout,_⟩ := acceptable.network e entry inquires.kind
    cases inquires.network.symm.trans network
    exact timeout
  refine ⟨rfl,fun now => Dns.keepsTime_of_lt positive,fun now => Dns.runsOut_of_le,?_⟩
  intro longer ne
  have validated := ((c.withProbeTimeout longer).validated_iff.1 _).mpr
    ⟨acceptable.withProbeTimeout ne,rfl⟩
  refine ⟨validated,List.mem_map_of_mem entry,inquires.withProbeTimeout longer,fun beyond now => ?_⟩
  exact Dns.runsOut_of_le (Nat.le_trans beyond (Nat.le_add_left _ _))

def kubernetes : DomainName :=
  ⟨["kubernetes", "default", "svc", "cluster", "local"].map fun label => label.toList.map DomainName.byte⟩

def kubernetesSpec (seconds : UInt64) : NetworkSpec :=
  { NetworkSpec.standard with probeTimeout := seconds }

def kubernetesConfig (seconds : UInt64) : Config :=
  ⟨General.standard "/tmp", [⟨"dns", "network", 0, 0, some (kubernetesSpec seconds)⟩], ⟨[], []⟩⟩

theorem Config.deadlines_of_accepted_kubernetes :
    (kubernetesConfig 5).validated = .ok (kubernetesConfig 5) ∧
    (kubernetesSpec 5).inquiry = .ok (.dns kubernetes 5) ∧
    Dns.KeepsTime 1000 kubernetes 5 ∧
    (kubernetesConfig 300).validated = .ok (kubernetesConfig 300) := by
  have accepted : (kubernetesConfig 5).validated = .ok (kubernetesConfig 5) := by decide +kernel
  have inquiry : (kubernetesSpec 5).inquiry = .ok (.dns kubernetes 5) := by decide +kernel
  obtain ⟨_,inside,_,others⟩ :=
    Config.deadlines_of_accepted accepted (List.mem_singleton.mpr rfl) ⟨rfl,rfl,inquiry⟩
  exact ⟨accepted,inquiry,inside 1000 (by decide),(others 300 (by decide)).1⟩

/-- The longest limit that there is has been accepted, and there is no instant at which its queries have a
deadline. -/
theorem endless_limit_accepted :
    (kubernetesConfig 18446744073709551615).validated = .ok (kubernetesConfig 18446744073709551615) ∧
    (kubernetesSpec 18446744073709551615).inquiry = .ok (.dns kubernetes 18446744073709551615) ∧
    ∀ now, Dns.deadline? now (18446744073709551615 : UInt64).toNat = none ∧
      Dns.exchangeAt now 0 kubernetes "127.0.0.1:53" 18446744073709551615 (.ok []) =
        .error Dns.noDeadline := by
  refine ⟨by decide +kernel,by decide +kernel,fun now => ?_⟩
  have outside : Dns.clockEnd ≤ now + (18446744073709551615 : UInt64).toNat :=
    Nat.le_trans (by decide) (Nat.le_add_left _ now)
  obtain ⟨beyond,crashes⟩ := Dns.runsOut_of_le (n := kubernetes) outside
  exact ⟨beyond,crashes 0 _ (.ok []) (by decide +kernel) rfl⟩

end HealthProbe
