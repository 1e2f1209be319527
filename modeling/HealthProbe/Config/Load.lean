import HealthProbe.Config.Coding
import HealthProbe.Config.Substitution
import HealthProbe.Config.Validity
import HealthProbe.Files.Tree
import HealthProbe.Toml.Reader

/-! # Loading configurations

From a text to a configuration that may be used: variables are filled in, the document is read and
decoded, and the result has to be valid. A file has to be there and to hold text.
-/
namespace HealthProbe

def Environment.tempDir (env : Environment) : String := (env.lookup "TMPDIR").getD "/tmp"

namespace Config

def parse (env : Environment) (substituting : Bool) (text : String) : Except ConfigFailure Config := do
  let text ← if substituting then Substitution.substitute env text else pure text
  match (Toml.read text).bind (Config.decode? Decode.toml env.tempDir) with
  | some c => pure c
  | none => throw (.parse "TOML解析失败: 文档无效")

def validated (c : Config) : Except ConfigFailure Config :=
  match c.violation? with
  | some v => .error (.validation v.message)
  | none => .ok c

def ofText (env : Environment) (substituting : Bool) (text : String) : Except ConfigFailure Config :=
  (parse env substituting text).bind validated

def ofFile (env : Environment) (substituting : Bool) (files : FileTree) (path : String) :
    Except ConfigFailure Config :=
  if files.isThere path then
    match files.readText path with
    | .error e => .error (.parse ("读取文件失败: " ++ e.message))
    | .ok text => ofText env substituting text
  else .error (.fileNotFound path)

def settingsDir? (env : Environment) : Option String :=
  match env.lookup "XDG_CONFIG_HOME" with
  | some dir => if Path.isAbsolute dir then some dir else homeSettings
  | none => homeSettings
where
  homeSettings : Option String :=
    match env.lookup "HOME" with
    | some home => if home.isEmpty then none else some (Path.join home ".config")
    | none => none

/-- The configuration file of a user who names none: one in the working folder, else the one among
the user's settings. -/
def defaultFile (env : Environment) (files : FileTree) : String :=
  if files.isThere "config.toml" then "config.toml"
  else
    match settingsDir? env with
    | some dir => Path.join (Path.join dir "cluster-vitals") "config.toml"
    | none => "config.toml"

end Config
end HealthProbe
