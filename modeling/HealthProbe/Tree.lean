/-! # Trees of data

What a document says once its notation is gone: the common ground of the notations that the program
reads. A record keeps its fields in the order of the document, and a name may come twice.
-/
namespace HealthProbe

inductive Tree
  | null
  | bool (b : Bool)
  | nat (n : Nat)
  /-- A number that is no natural number in plain digits, by its text. -/
  | number (text : String)
  | text (s : String)
  /-- A string whose escapes spell no text. -/
  | brokenText
  | list (items : List Tree)
  | record (fields : List (String × Tree))
  deriving Repr, Inhabited

namespace Tree

/-- The value of the last field with a name. -/
def get? (name : String) : Tree → Option Tree
  | record fs => fs.reverse.lookup name
  | _ => none

def valuesOf (name : String) (fields : List (String × Tree)) : List Tree :=
  (fields.filter (·.1 == name)).map Prod.snd

/-- Fields without repetition: of those with one name the last stays. -/
def lastOfEach : List (String × Tree) → List (String × Tree)
  | [] => []
  | (k, v) :: rest => if rest.any (·.1 == k) then lastOfEach rest else (k, v) :: lastOfEach rest

mutual
def merged : Tree → Tree
  | list xs => list (mergedItems xs)
  | record fs => record (lastOfEach (mergedFields fs))
  | t => t

def mergedItems : List Tree → List Tree
  | [] => []
  | x :: xs => x.merged :: mergedItems xs

def mergedFields : List (String × Tree) → List (String × Tree)
  | [] => []
  | (k, x) :: fs => (k, x.merged) :: mergedFields fs
end

end Tree
end HealthProbe
