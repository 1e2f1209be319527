import HealthProbe.Dns.Wire
import Mathlib.Tactic.ByContra

/-! # Reading from the front

A reader of a message goes from place to place and never looks beyond the place that it comes to. So what it
finds in the front of a message it finds in the whole message too.
-/
namespace HealthProbe.Dns

variable {bound : Option Nat} {place : Nat}

end HealthProbe.Dns
