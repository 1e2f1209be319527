import HealthProbe.Address
import HealthProbe.Table
import HealthProbe.Tree

/-! # Decoding trees

The leaves of decoding: what a text, a number, a list or a choice looks like as a tree. A structure is
a record, of which unknown fields do not count, or the list of its fields in their order.
-/
namespace HealthProbe.Decode

/-- What the notations do not agree on: which tree beside the name of a choice means that there is
nothing to add. -/
structure Dialect where
  isNothing : Tree → Bool

def json : Dialect where
  isNothing
    | .null => true
    | _ => false

def toml : Dialect where
  isNothing
    | .list [] => true
    | .record [] => true
    | _ => false

def text? : Tree → Option String
  | .text s => some s
  | _ => none

def flag? : Tree → Option Bool
  | .bool b => some b
  | _ => none

def nat? (bound : Nat) : Tree → Option Nat
  | .nat n => if n < bound then some n else none
  | _ => none

def word16? (t : Tree) : Option UInt16 := (nat? UInt16.size t).map UInt16.ofNat

def word32? (t : Tree) : Option UInt32 := (nat? UInt32.size t).map UInt32.ofNat

def word64? (t : Tree) : Option UInt64 := (nat? UInt64.size t).map UInt64.ofNat

def address? (t : Tree) : Option Address := (text? t).bind Address.read

def listOf? {α : Type} (item? : Tree → Option α) : Tree → Option (List α)
  | .list xs => xs.mapM item?
  | _ => none

def tableOf? {α : Type} (item? : Tree → Option α) : Tree → Option (Table α)
  | .record fs => (fs.mapM fun f => (item? f.2).map fun v => (f.1, v)).map Table.ofList
  | _ => none

def orNull? {α : Type} (item? : Tree → Option α) : Tree → Option (Option α)
  | .null => some none
  | t => (item? t).map some

/-- A choice by name. The name may also stand as the one field of a record that adds nothing. -/
def choice? {α : Type} (d : Dialect) (ofLabel? : String → Option α) : Tree → Option α
  | .text s => ofLabel? s
  | .record [(s, t)] => if d.isNothing t then ofLabel? s else none
  | _ => none

/-- The value of one field of a record; a second one is a fault. -/
def field? (fields : List (String × Tree)) (name : String) : Option (Option Tree) :=
  match Tree.valuesOf name fields with
  | [] => some none
  | [t] => some (some t)
  | _ => none

def fields? (names : List String) : Tree → Option (List (Option Tree))
  | .record fs => names.mapM (field? fs)
  | .list xs =>
    if xs.length ≤ names.length then
      some (xs.map some ++ List.replicate (names.length - xs.length) none)
    else none
  | _ => none

def required? {α : Type} (item? : Tree → Option α) (t : Option Tree) : Option α := t.bind item?

def orElse? {α : Type} (default : α) (item? : Tree → Option α) : Option Tree → Option α
  | none => some default
  | some t => item? t

end HealthProbe.Decode
