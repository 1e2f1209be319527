import HealthProbe.Tree

/-! # Tables under construction

A settings document builds its tables bit by bit, and each bit may add only to tables of its own making.
A table remembers whether a header named it, a longer header passed through it, or a dotted key made
it; values, whole inline tables among them, are closed.
-/
namespace HealthProbe.Toml

inductive Origin
  | header | passed | dotted
  deriving DecidableEq, Repr

inductive Node
  | value (t : Tree)
  | table (origin : Origin) (entries : List (String × Node))
  /-- Tables that double headers have begun, the last one first. -/
  | tables (items : List (List (String × Node)))

abbrev Entries := List (String × Node)

/-- Puts a node in place of the one with the same name, or at the end. -/
def setNode (name : String) (n : Node) : Entries → Entries
  | [] => [(name, n)]
  | (k, m) :: rest => if k = name then (name, n) :: rest else (k, m) :: setNode name n rest

/-- Adds a value under a key. On the way there may be only tables that no header has named, and the
last of them has to come from a dotted key. -/
def addValue (es : Entries) (key : List String) (t : Tree) : Option Entries :=
  match key with
  | [] => none
  | [k] =>
    match es.lookup k with
    | none => some (es ++ [(k, .value t)])
    | some _ => none
  | k :: next :: rest =>
    match es.lookup k with
    | none => (addValue [] (next :: rest) t).map fun sub => es ++ [(k, .table .dotted sub)]
    | some (.table .dotted sub) =>
      (addValue sub (next :: rest) t).map fun sub => setNode k (.table .dotted sub) es
    | some (.table .passed sub) =>
      if rest.isEmpty then none
      else (addValue sub (next :: rest) t).map fun sub => setNode k (.table .passed sub) es
    | some (.tables (sub :: earlier)) =>
      if rest.isEmpty then none
      else (addValue sub (next :: rest) t).map fun sub => setNode k (.tables (sub :: earlier)) es
    | some _ => none

/-- Changes the table that a header names: `atEnd` is given what stands under the last part of the
name, and the parts before it are made where they are missing. -/
def underHeader (atEnd : Option Node → Option Node) (es : Entries) : List String → Option Entries
  | [] => none
  | [k] => (atEnd (es.lookup k)).map fun n => setNode k n es
  | k :: next :: rest =>
    match es.lookup k with
    | none => (underHeader atEnd [] (next :: rest)).map fun sub => es ++ [(k, .table .passed sub)]
    | some (.table o sub) =>
      (underHeader atEnd sub (next :: rest)).map fun sub => setNode k (.table o sub) es
    | some (.tables (sub :: earlier)) =>
      (underHeader atEnd sub (next :: rest)).map fun sub => setNode k (.tables (sub :: earlier)) es
    | some _ => none

/-- A table may be named once, also after longer names have passed through it. -/
def openTable : Option Node → Option Node
  | none => some (.table .header [])
  | some (.table .passed es) => some (.table .header es)
  | some _ => none

def openItem : Option Node → Option Node
  | none => some (.tables [[]])
  | some (.tables items) => some (.tables ([] :: items))
  | some _ => none

def addUnder (header key : List String) (t : Tree) (es : Entries) : Option Entries :=
  if header.isEmpty then addValue es key t
  else
    underHeader (fun
      | some (.table o sub) => (addValue sub key t).map (.table o)
      | some (.tables (sub :: earlier)) => (addValue sub key t).map fun sub => .tables (sub :: earlier)
      | _ => none) es header

mutual
def Node.tree : Node → Tree
  | .value t => t
  | .table _ es => .record (entriesTree es)
  | .tables items => .list (itemsTree items).reverse

def entriesTree : List (String × Node) → List (String × Tree)
  | [] => []
  | (k, n) :: es => (k, n.tree) :: entriesTree es

def itemsTree : List (List (String × Node)) → List Tree
  | [] => []
  | es :: items => .record (entriesTree es) :: itemsTree items
end

end HealthProbe.Toml
