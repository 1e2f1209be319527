/-! # Names of nodes and checkers

A node's name is a domain name: labels between dots, each of small letters, digits and hyphens, with
no hyphen at an end, and at most 253 characters in all. A checker's name is one such label of at most
63 characters.
-/
namespace HealthProbe.Name

def isSmallAlnum (c : Char) : Bool := ('a' ≤ c && c ≤ 'z') || c.isDigit

/-- Where the reading of a name stands: at the start of a label, after a letter or a digit of it, or
after a hyphen of it. -/
inductive Place
  | start | inside | hyphen
  deriving DecidableEq, Repr

/-- Reads a name from a place on. A dot may be left out of the language by `dots`. -/
def accepts (dots : Bool) : Place → List Char → Bool
  | p, [] => p == .inside
  | p, c :: cs =>
    if isSmallAlnum c then accepts dots .inside cs
    else if c = '-' then p != .start && accepts dots .hyphen cs
    else if c = '.' then dots && p == .inside && accepts dots .start cs
    else false

def isNode (s : String) : Bool := s.utf8ByteSize ≤ 253 && accepts true .start s.toList

def isChecker (s : String) : Bool := s.length ≤ 63 && accepts false .start s.toList

end HealthProbe.Name
