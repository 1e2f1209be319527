import HealthProbe.Text.Pieces

/-! # Paths

Paths are texts, joined as texts; only a lookup takes them apart. The steps of a path leave out empty
ones and single dots, and a path from the root keeps a mark of it as its first step.
-/
namespace HealthProbe.Path

def isAbsolute (path : String) : Bool := path.toList.head? == some '/'

/-- The path of `name` seen from `folder`. There is never a second slash between them. -/
def join (folder name : String) : String :=
  if isAbsolute name || folder.isEmpty then name
  else if folder.toList.getLast? == some '/' then folder ++ name
  else folder ++ "/" ++ name

def steps (path : String) : Bool × List String :=
  let parts := (Text.pieces '/' path.toList).map String.ofList
  (isAbsolute path, parts.filter fun p => p != "" && p != ".")

/-- The one text for all paths with the same steps. -/
def key (absolute : Bool) (steps : List String) : String :=
  (if absolute then "/" else "") ++ "/".intercalate steps

def endsAsFolder (path : String) : Bool := path.toList.getLast? == some '/'

def parent (path : String) : String :=
  let cs := path.toList.reverse.dropWhile (· == '/')
  String.ofList (((cs.dropWhile (· != '/')).dropWhile (· == '/')).reverse)

/-- What stands in a name before its last dot. A dot at the front ends nothing. -/
def stem (name : List Char) : List Char :=
  match name.reverse.dropWhile (· != '.') with
  | _ :: c :: cs => (c :: cs).reverse
  | _ => name

def withEnding (path ending : String) : String :=
  let cs := path.toList.reverse
  let folder := (cs.dropWhile (· != '/')).reverse
  let name := (cs.takeWhile (· != '/')).reverse
  String.ofList (folder ++ stem name ++ '.' :: ending.toList)

end HealthProbe.Path
