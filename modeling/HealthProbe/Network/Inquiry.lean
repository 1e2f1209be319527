import HealthProbe.Config.Basic
import HealthProbe.Dns.Wire
import HealthProbe.Http.Reply
import HealthProbe.Network.Check

/-! # Inquiries

What is needed to probe the addresses of a network check: a name to ask for, or a path to request, and
how long to wait. A name that is none is found out before the first probe.
-/
namespace HealthProbe

inductive Inquiry
  | dns (query : DomainName) (seconds : UInt64)
  | http (path : String) (seconds : UInt64)
  deriving DecidableEq, Repr

def NetworkSpec.inquiry (s : NetworkSpec) : Except String Inquiry :=
  match s.protocol with
  | .dns =>
    match DomainName.ofText s.queryName with
    | .ok n => .ok (.dns n s.probeTimeout)
    | .error f => .error (f.message s.queryName)
  | .http => .ok (.http (Http.rooted s.httpPath) s.probeTimeout)

structure Echo where
  now : Nat
  id : UInt16
  /-- The answer to a query with the id. -/
  datagrams : Except Dns.Refusal (List Dns.Datagram)
  /-- The end of a request and its time, if nobody waited less. -/
  page : Http.End
  delay : Nat

namespace Inquiry

def probing (target : String) (echo : Echo) : Inquiry → Probing
  | dns name seconds =>
    match Dns.exchangeFrom echo.now echo.id name target (1000 * seconds.toNat) echo.datagrams with
    | .error words => .crash 0 words
    | .ok (result, delay) => .probe ⟨delay, failure? result⟩
  | http path seconds =>
    if 1000 * seconds.toNat < echo.delay then
      .probe ⟨1000 * seconds.toNat, failure? (Http.End.timedOut.result target path)⟩
    else .probe ⟨echo.delay, failure? (echo.page.result target path)⟩
where
  failure? : Except CheckFailure Unit → Option CheckFailure
    | .ok () => none
    | .error e => some e

end Inquiry
end HealthProbe
