import HealthProbe.Dns.Name
import HealthProbe.Text.Pieces

/-! # Messages of the domain name system

What of a message counts here, and the codec that turns messages into bytes and back. Names and messages
are written and read by a library; whatever is said of exchanges holds for any.
-/
namespace HealthProbe

namespace Dns

structure Question where
  name : DomainName
  kind : UInt16
  scope : UInt16
  deriving DecidableEq, Repr

structure Record where
  name : DomainName
  kind : UInt16
  scope : UInt16
  lifetime : List UInt8
  data : List UInt8
  deriving DecidableEq, Repr

structure Message where
  id : UInt16
  response : Bool
  opcode : Nat
  recursionDesired : Bool
  /-- How the server judges the query. -/
  code : Nat
  questions : List Question
  answers : List Record
  authorities : List Record
  additions : List Record
  deriving DecidableEq, Repr

def kindA : UInt16 := 1

def scopeInternet : UInt16 := 1

def Message.query (id : UInt16) (n : DomainName) : Message where
  id
  response := false
  opcode := 0
  recursionDesired := true
  code := 0
  questions := [⟨n, kindA, scopeInternet⟩]
  answers := []
  authorities := []
  additions := []

/-- A library for names and messages, which gives a reason for what it refuses. -/
class Codec where
  name : List Char → Except String DomainName
  write : Message → Except String (List UInt8)
  read : List UInt8 → Except String Message

end Dns

namespace DomainName
variable [codec : Dns.Codec]

def ofText (s : String) : Except Fault DomainName :=
  let cs := withoutLastDots s.toList
  if cs.isEmpty || (Text.pieces '.' cs).any List.isEmpty then .error .empty
  else (codec.name cs).mapError .refused

end DomainName
end HealthProbe
