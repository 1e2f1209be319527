import HealthProbe.Verdict

/-! # Signals of connectivity

A network check counts the peers that it reached and notes whether the service in front of them answered.
The verdict follows from these signals alone. With fewer than two peers there is no verdict.
-/
namespace HealthProbe

structure Signals where
  peers : Nat
  reached : Nat
  serviceReached : Bool
  serviceFailure : Option String
  deriving DecidableEq, Repr

namespace Signals

def insufficient (peers : Nat) : Signals := ⟨peers, 0, false, none⟩

def insufficientCode : String := "InsufficientPeers"
def peerCode : String := "PeerConnectivityFailure"
def serviceCode : String := "AggregateLinkFailure"
def completeCode : String := "CompleteFailure"

def serviceReason (s : Signals) : String := s.serviceFailure.getD "无响应"

def verdict (s : Signals) : Verdict :=
  if s.peers ≤ 1 then
    .unknown insufficientCode
      ("insufficient peers for conclusive test: 仅发现 " ++ toString s.peers ++ " 个可用实例")
  else
    match s.serviceReached, decide (0 < s.reached) with
    | true, true => .healthy
    | true, false =>
      .unhealthy peerCode ("聚合链路可达，但 " ++ toString s.peers ++ " 个对等实例均不可达")
    | false, true =>
      .unhealthy serviceCode (toString s.reached ++ "/" ++ toString s.peers ++
        " 个对等实例可达，但聚合链路不可达: " ++ s.serviceReason)
    | false, false =>
      .unhealthy completeCode (toString s.peers ++ " 个对等实例与聚合链路均不可达: " ++ s.serviceReason)

theorem consistent_verdict (s : Signals) : s.verdict.Consistent := by
  unfold verdict
  split
  · exact Verdict.consistent_unknown _ _
  · split
    · exact Verdict.consistent_healthy
    · exact Verdict.consistent_unhealthy _ _
    · exact Verdict.consistent_unhealthy _ _
    · exact Verdict.consistent_unhealthy _ _

end Signals
end HealthProbe
