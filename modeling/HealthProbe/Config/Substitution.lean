import HealthProbe.Failure

/-! # Variables in a configuration text

A reference is a dollar sign and a name between braces. References are found in the text as it was
written; each in turn then has every occurrence of it replaced in the text as it is by then, so a value
may bring in references that are still to come.
-/
namespace HealthProbe

abbrev Environment := List (String × String)

namespace Substitution

def isNameStart (c : Char) : Bool := c.isAlpha || c == '_'

def isNameChar (c : Char) : Bool := c.isAlphanum || c == '_'

/-- A text taken apart into its references and the characters around them. -/
inductive Piece
  | plain (c : Char)
  | reference (name : List Char)
  deriving DecidableEq, Repr

def name? (cs : List Char) : Option (List Char) :=
  let name := cs.takeWhile isNameChar
  match name, cs.drop name.length with
  | c :: _, '\x7d' :: _ => if isNameStart c then some name else none
  | _, _ => none

def reference? : List Char → Option (List Char)
  | '$' :: '\x7b' :: rest => name? rest
  | _ => none

def referenceText (name : List Char) : List Char := '$' :: '\x7b' :: name ++ ['\x7d']

/-- The pieces of a text of which the first `skip` characters belong to a reference already seen. -/
def piecesFrom : (skip : Nat) → List Char → List Piece
  | _, [] => []
  | skip + 1, _ :: cs => piecesFrom skip cs
  | 0, c :: cs =>
    match reference? (c :: cs) with
    | some name => .reference name :: piecesFrom (name.length + 2) cs
    | none => .plain c :: piecesFrom 0 cs

def pieces (cs : List Char) : List Piece := piecesFrom 0 cs

def references (cs : List Char) : List (List Char) :=
  (pieces cs).filterMap fun
    | .plain _ => none
    | .reference name => some name

/-- Replaces a pattern from left to right, with `skip` characters of an occurrence still to pass. -/
def replaceFrom (pattern value : List Char) : (skip : Nat) → List Char → List Char
  | _, [] => []
  | skip + 1, _ :: cs => replaceFrom pattern value skip cs
  | 0, c :: cs =>
    if pattern.isPrefixOf (c :: cs) then value ++ replaceFrom pattern value (pattern.length - 1) cs
    else c :: replaceFrom pattern value 0 cs

def replaceAll (pattern value cs : List Char) : List Char := replaceFrom pattern value 0 cs

/-- Replaces the references with the given names one after the other. -/
def replaceEach (env : Environment) : List (List Char) → List Char → Except ConfigFailure (List Char)
  | [], cs => .ok cs
  | name :: names, cs =>
    match env.lookup (String.ofList name) with
    | some value => replaceEach env names (replaceAll (referenceText name) value.toList cs)
    | none => .error (.variableMissing (String.ofList name))

def substitute (env : Environment) (s : String) : Except ConfigFailure String :=
  let cs := s.toList
  (replaceEach env (references cs) cs).map String.ofList

/-- What every reference stands for, all at once. -/
def expand (env : Environment) (ps : List Piece) : List Char :=
  ps.flatMap fun
    | .plain c => [c]
    | .reference name => ((env.lookup (String.ofList name)).getD "").toList

end Substitution
end HealthProbe
