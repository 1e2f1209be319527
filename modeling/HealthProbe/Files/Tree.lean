import HealthProbe.Files.Path
import HealthProbe.Table

/-! # File trees

The files and folders that the program sees, as a table from paths to what stands there. The working
folder and the root are always there. A lookup goes through folders only; every change is one of three
steps, which either happens whole or leaves the tree as it is.
-/
namespace HealthProbe

inductive OsError
  | notFound | taken | notFolder | isFolder | notText | invalid
  deriving DecidableEq, Repr

def OsError.message : OsError → String
  | notFound => "No such file or directory (os error 2)"
  | taken => "File exists (os error 17)"
  | notFolder => "Not a directory (os error 20)"
  | isFolder => "Is a directory (os error 21)"
  | notText => "stream did not contain valid UTF-8"
  | invalid => "file name contained an unexpected NUL byte"

inductive FileEntry
  | text (content : String)
  | binary (content : List UInt8)
  | folder
  deriving DecidableEq, Repr

structure FileTree where
  entries : Table FileEntry
  deriving DecidableEq

namespace FileTree

def empty : FileTree := ⟨Table.empty⟩

instance : Inhabited FileTree := ⟨empty⟩

/-- What stands at a place, given by its key. The root, the working folder and those above it are
folders. -/
def at? (t : FileTree) (key : String) : Option FileEntry :=
  if (Path.steps key).2.all (· == "..") then some .folder else t.entries.find? key

/-- One step further. A step back leaves out the last step, and from the working folder leads above
it. -/
def further (absolute : Bool) (reached : List String) (step : String) : List String :=
  if step = ".." then
    if reached.isEmpty || reached.getLast? = some ".." then
      if absolute then reached else reached ++ [".."]
    else reached.dropLast
  else reached ++ [step]

/-- Follows steps from a place that has been reached by others. Every place but the last has to be a
folder. -/
def walk (t : FileTree) (absolute : Bool) (reached : List String) :
    List String → Except OsError (List String)
  | [] => .ok reached
  | s :: rest =>
    match t.at? (Path.key absolute reached) with
    | some .folder => walk t absolute (further absolute reached s) rest
    | some _ => .error .notFolder
    | none => .error .notFound

/-- The key of the place that a path leads to; there need not be anything. -/
def locate (t : FileTree) (path : String) : Except OsError String :=
  if path.isEmpty then .error .notFound
  else if path.toList.contains '\x00' then .error .invalid
  else
    let (absolute, steps) := Path.steps path
    match t.walk absolute [] steps with
    | .error e => .error e
    | .ok reached =>
      let key := Path.key absolute reached
      match t.at? key with
      | some (.text _) | some (.binary _) =>
        if Path.endsAsFolder path then .error .notFolder else .ok key
      | _ => .ok key

def entry (t : FileTree) (path : String) : Except OsError FileEntry :=
  match t.locate path with
  | .error e => .error e
  | .ok key =>
    match t.at? key with
    | some e => .ok e
    | none => .error .notFound

def isThere (t : FileTree) (path : String) : Bool := (t.entry path).toOption.isSome

def readText (t : FileTree) (path : String) : Except OsError String :=
  match t.entry path with
  | .error e => .error e
  | .ok (.text s) => .ok s
  | .ok (.binary _) => .error .notText
  | .ok .folder => .error .isFolder

/-- Makes each of the folders on the way that is not there yet. A file may be neither on the way nor at
its end. -/
def makeFoldersFrom (t : FileTree) (absolute : Bool) (reached : List String) :
    List String → Except OsError FileTree
  | [] => .ok t
  | s :: rest =>
    let reached := further absolute reached s
    let key := Path.key absolute reached
    match t.at? key with
    | some .folder => makeFoldersFrom t absolute reached rest
    | some _ => .error (if rest.isEmpty then .taken else .notFolder)
    | none => makeFoldersFrom ⟨t.entries.insert key .folder⟩ absolute reached rest

inductive Step
  | makeFolders (path : String)
  | write (path : String) (content : String)
  | rename (source target : String)
  deriving DecidableEq, Repr

def put (t : FileTree) (path : String) (e : FileEntry) : Except OsError FileTree :=
  match t.locate path with
  | .error e => .error e
  | .ok key =>
    if t.at? key = some .folder || Path.endsAsFolder path then .error .isFolder
    else .ok ⟨t.entries.insert key e⟩

def apply (t : FileTree) : Step → Except OsError FileTree
  | .makeFolders path =>
    if path.isEmpty then .ok t
    else
      let (absolute, steps) := Path.steps path
      t.makeFoldersFrom absolute [] steps
  | .write path content => t.put path (.text content)
  | .rename source target =>
    match t.locate source, t.locate target with
    | .error e, _ => .error e
    | _, .error e => .error e
    | .ok old, .ok new =>
      match t.at? old, t.at? new with
      | none, _ => .error .notFound
      | some .folder, _ => .error .isFolder
      | some _, some .folder => .error .isFolder
      | some e, _ => .ok ⟨(t.entries.erase old).insert new e⟩

/-- Applies steps up to the first that fails, and tells how that one failed. -/
def applyAll (t : FileTree) : List Step → FileTree × Option OsError
  | [] => (t, none)
  | s :: rest =>
    match t.apply s with
    | .ok t => applyAll t rest
    | .error e => (t, some e)

def files (t : FileTree) : List String :=
  (t.entries.entries.filter fun e => e.2 != .folder).map Prod.fst

end FileTree
end HealthProbe
