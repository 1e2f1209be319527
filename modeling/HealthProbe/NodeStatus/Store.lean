import HealthProbe.Config.Validity
import HealthProbe.Files.Tree
import HealthProbe.Json.Reader
import HealthProbe.Json.Writer
import HealthProbe.NodeStatus.Coding

/-! # Stores of statuses

One store keeps statuses in memory, the other keeps each in a file of its own: `<node>.json` in a folder
for statuses. A file is written under another name first and then renamed, so that a reader never sees
half of one. Only a valid node name becomes the name of a file.
-/
namespace HealthProbe

namespace MemoryStore

abbrev State := Table NodeStatus

def get (node : String) (s : State) : NodeStatus := (s.find? node).getD (NodeStatus.new node)

def put (status : NodeStatus) (s : State) : State := s.insert status.node status

def store : Store State where
  get node s := (.ok (get node s), s)
  update status s := (.ok (), put status s)

end MemoryStore

namespace FileStore

def path? (dir node : String) : Except Violation String :=
  match nodeViolation? node with
  | some v => .error v
  | none => .ok (Path.join dir (node ++ ".json"))

def draftPath (path : String) : String := Path.withEnding path "json.tmp"

def unreadable : String := "解析状态文件失败: 内容无效"

def decode (node text : String) : Except StoreFailure NodeStatus :=
  match (Json.read text).bind NodeStatus.decode? with
  | some s => .ok s
  | none => .error (.read node unreadable)

/-- The status of a node. One without a file is new. -/
def get (dir node : String) (files : FileTree) : Except StoreFailure NodeStatus :=
  match path? dir node with
  | .error v => .error (.read node v.message)
  | .ok path =>
    match files.readText path with
    | .ok text => decode node text
    | .error .notFound => .ok (NodeStatus.new node)
    | .error e => .error (.read node e.message)

def absentText? (dir node : String) (files : FileTree) : Option String :=
  match path? dir node with
  | .error _ => none
  | .ok path =>
    match files.readText path with
    | .error .notFound => some ("状态文件不存在，使用空状态: " ++ path)
    | _ => none

def writtenText? (dir node : String) : Option String :=
  (path? dir node).toOption.map ("状态已写入: " ++ ·)

def content (s : NodeStatus) : String := Json.page s.encode

/-- The changes that put a text into a file at once. -/
def steps (path text : String) : List FileTree.Step :=
  [.makeFolders (Path.parent path), .write (draftPath path) text, .rename (draftPath path) path]

def update (dir : String) (s : NodeStatus) (files : FileTree) : Except StoreFailure Unit × FileTree :=
  match path? dir s.node with
  | .error v => (.error (.write s.node v.message), files)
  | .ok path =>
    match files.applyAll (steps path (content s)) with
    | (files, none) => (.ok (), files)
    | (files, some e) => (.error (.write s.node e.message), files)

def store (dir : String) : Store FileTree where
  get node files := (get dir node files, files)
  update := update dir

end FileStore
end HealthProbe
