import HealthProbe.Config.Load
import HealthProbe.Log

/-! # Command lines

A command line has options, the name of a command, and options again; the options that every command
knows may stand before or after its name. An option that is missing may be set in the environment. What
is wrong with a command line is found in the order of reading, and only then in the environment: in the
part of the command first.
-/
namespace HealthProbe

inductive Format
  | text | json
  deriving DecidableEq, Repr

def Format.label : Format → String
  | text => "text"
  | json => "json"

inductive Command
  | run
  | check (node : Option String) (format : Format)
  | validate (verbose : Bool)
  deriving DecidableEq, Repr

structure CommandLine where
  config : Option String
  logLevel : Option String
  logFile : Option String
  jsonLogs : Bool
  command : Command
  deriving DecidableEq, Repr

namespace CommandLine

def configFile (a : CommandLine) (env : Environment) (files : FileTree) : String :=
  a.config.getD (Config.defaultFile env files)

inductive Fault
  | helpAsked
  | versionAsked
  | nothingGiven
  | noCommand
  | unknownCommand
  | unknownOption
  | badValue
  | unwantedValue
  | repeatedOption
  deriving DecidableEq, Repr

/-! ## Options -/

inductive Key
  | config | logLevel | logFile | jsonLogs | node | format | verbose | help | version
  deriving DecidableEq, Repr

namespace Key

def long : Key → String
  | config => "config"
  | logLevel => "log-level"
  | logFile => "log-file"
  | jsonLogs => "json-logs"
  | node => "node"
  | format => "format"
  | verbose => "verbose"
  | help => "help"
  | version => "version"

def short? : Key → Option Char
  | config => some 'c'
  | logLevel => some 'l'
  | node => some 'n'
  | format => some 'f'
  | verbose => some 'v'
  | help => some 'h'
  | version => some 'V'
  | logFile => none
  | jsonLogs => none

def takesValue : Key → Bool
  | config => true
  | logLevel => true
  | logFile => true
  | node => true
  | format => true
  | _ => false

/-- Whether a value is good for an option. A path is not empty. -/
def accepts : Key → String → Bool
  | config, v => v != ""
  | logFile, v => v != ""
  | logLevel, v => logLevels.contains v
  | format, v => v == "text" || v == "json"
  | _, _ => true

def environmentName? : Key → Option String
  | config => some "CLUSTER_VITALS_CONFIG"
  | logLevel => some "CLUSTER_VITALS_LOG_LEVEL"
  | logFile => some "CLUSTER_VITALS_LOG_FILE"
  | _ => none

end Key

def sharedKeys : List Key := [.config, .logLevel, .logFile, .jsonLogs, .help]

/-- Where an option stands: before the name of a command, or after it. -/
inductive Part
  | front | run | check | validate
  deriving DecidableEq, Repr

def Part.keys : Part → List Key
  | front => sharedKeys ++ [.version]
  | run => sharedKeys
  | check => sharedKeys ++ [.node, .format]
  | validate => sharedKeys ++ [.verbose]

def Part.ofName? : String → Option Part
  | "run" => some run
  | "check" => some check
  | "validate" => some validate
  | _ => none

/-! ## Reading -/

/-- What has been read of a part. The last option may still want its value, or have one that has not been
looked at. -/
structure Draft where
  found : List (Key × String)
  pending : Option (Key × Option String)
  /-- Two hyphens have been read; no option follows. -/
  closed : Bool

namespace Draft

def empty : Draft := ⟨[], none, false⟩

def has (d : Draft) (k : Key) : Bool := d.found.any (·.1 == k)

def value? (d : Draft) (k : Key) : Option String := d.found.lookup k

/-- Takes an option in with its value, unless it is there already. -/
def add (d : Draft) (k : Key) (value : String) : Except Fault Draft :=
  if d.has k then .error .repeatedOption
  else if k.accepts value then .ok { d with found := d.found ++ [(k, value)] }
  else .error .badValue

def settle (d : Draft) : Except Fault Draft :=
  match d.pending with
  | none => .ok d
  | some (_, none) => .error .badValue
  | some (k, some v) => add { d with pending := none } k v

def wantsValue (d : Draft) : Bool :=
  match d.pending with
  | some (_, none) => true
  | _ => false

def flag (d : Draft) (k : Key) : Except Fault Draft := do
  let d ← d.settle
  match k with
  | .help => .error .helpAsked
  | .version => .error .versionAsked
  | k => d.add k ""

def option (d : Draft) (k : Key) (attached : Option String) : Except Fault Draft := do
  let d ← d.settle
  match attached with
  | some v => d.add k v
  | none => .ok { d with pending := some (k, none) }

def long (p : Part) (d : Draft) (cs : List Char) : Except Fault Draft :=
  let (name, value) := Text.cut '=' cs
  match p.keys.find? fun k => k.long.toList == name with
  | none => .error .unknownOption
  | some k =>
    if k.takesValue then d.option k (value.map String.ofList)
    else if value.isSome then .error .unwantedValue
    else d.flag k

/-- The options of a word that begins with one hyphen, without it. The first that takes a value takes all
the rest, less an equals sign. -/
def short (p : Part) (d : Draft) : List Char → Except Fault Draft
  | [] => .ok d
  | c :: rest =>
    match p.keys.find? fun k => k.short? == some c with
    | none => .error .unknownOption
    | some k =>
      if k.takesValue then
        match rest with
        | [] => d.option k none
        | '=' :: v => d.option k (some (String.ofList v))
        | v => d.option k (some (String.ofList v))
      else
        match d.flag k with
        | .error f => .error f
        | .ok d => short p d rest

def strayFault (p : Part) (closed : Bool) (word : String) : Fault :=
  if p = .front then
    if closed && ((Part.ofName? word).isSome || word == "help") then .unknownOption else .unknownCommand
  else .unknownOption

def word (p : Part) (d : Draft) (w : String) : Except Fault Draft :=
  if d.closed then .error (strayFault p true w)
  else
    match w.toList with
    | ['-', '-'] => .ok { d with closed := true }
    | '-' :: '-' :: cs => d.long p cs
    | '-' :: c :: cs => d.short p (c :: cs)
    | _ =>
      match d.pending with
      | some (k, none) => .ok { d with pending := some (k, some w) }
      | _ => .error (strayFault p false w)

end Draft

inductive FrontEnd
  | nothing
  | command (p : Part) (rest : List String)
  | help (rest : List String)

def readPart (p : Part) (d : Draft) : List String → Except Fault Draft
  | [] => .ok d
  | w :: ws => do
    let d ← d.word p w
    readPart p d ws

def readFront (d : Draft) : List String → Except Fault (Draft × FrontEnd)
  | [] => .ok (d, .nothing)
  | w :: ws =>
    let mayName := !d.closed && !d.wantsValue
    match if mayName then Part.ofName? w else none with
    | some p => .ok (d, .command p ws)
    | none =>
      if mayName && w == "help" then .ok (d, .help ws)
      else
        match d.word .front w with
        | .error f => .error f
        | .ok d => readFront d ws

/-- Sets the options of a part that are missing from the environment, in order. Those that it sets come
apart from those that were found. -/
def fromEnvironment (env : Environment) (d : Draft) :
    List Key → Except Fault (List (Key × String))
  | [] => .ok []
  | k :: ks =>
    match if d.has k then none else k.environmentName?.bind fun v => env.lookup v with
    | none => fromEnvironment env d ks
    | some v =>
      if k.accepts v then
        match fromEnvironment env d ks with
        | .ok rest => .ok ((k, v) :: rest)
        | .error f => .error f
      else .error .badValue

structure Settled where
  draft : Draft
  added : List (Key × String)

def settlePart (env : Environment) (d : Draft) : Except Fault Settled := do
  let d ← d.settle
  let added ← fromEnvironment env d sharedKeys
  .ok ⟨d, added⟩

def helpFault : List String → Fault
  | [] => .helpAsked
  | [w] => if (Part.ofName? w).isSome || w == "help" then .helpAsked else .unknownCommand
  | _ => .unknownCommand

/-- The value of a shared option: what stands after the name of the command counts most, then what stands
before it, then the environment. -/
def shared (front part : Settled) (k : Key) : Option String :=
  match part.draft.value? k with
  | some v => some v
  | none =>
    match front.draft.value? k with
    | some v => some v
    | none => part.added.lookup k

def commandOf (p : Part) (d : Draft) : Command :=
  match p with
  | .check => .check (d.value? .node) (if d.value? .format = some "json" then .json else .text)
  | .validate => .validate (d.has .verbose)
  | _ => .run

def parse (env : Environment) (words : List String) : Except Fault CommandLine := do
  let (front, stop) ← readFront .empty words
  match stop with
  | .help rest => .error (helpFault rest)
  | .nothing =>
    let front ← settlePart env front
    .error (if front.draft.found.isEmpty && front.added.isEmpty then .nothingGiven else .noCommand)
  | .command p rest =>
    let part ← readPart p .empty rest
    let part ← settlePart env part
    let front ← settlePart env front
    .ok { config := shared front part .config
          logLevel := shared front part .logLevel
          logFile := shared front part .logFile
          jsonLogs := front.draft.has .jsonLogs || part.draft.has .jsonLogs
          command := commandOf p part.draft }

end CommandLine
end HealthProbe
