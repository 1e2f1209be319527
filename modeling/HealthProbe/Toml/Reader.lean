import HealthProbe.Toml.Scalar
import HealthProbe.Toml.Table
import HealthProbe.Toml.Text

/-! # Settings documents as trees

A document is a list of lines: headers, keys with values, comments, blank lines. Lists and inline
tables may run over several lines and end with a comma. What is nested deeper than `maxDepth` is
refused, as is any control character outside of a quoted text's escapes.
-/
namespace HealthProbe.Toml

def maxDepth : Nat := 80

def restOfLine? (cs : List Char) : Option (List Char) :=
  match cs.dropWhile isBlank with
  | [] => some []
  | '#' :: rest =>
    let text := rest.takeWhile fun c => !isControl c
    let rest := rest.drop text.length
    if rest.isEmpty then some [] else lineEnd? rest
  | rest => lineEnd? rest

def skipSpace : (fuel : Nat) → List Char → Option (List Char)
  | 0, cs => some cs
  | fuel + 1, cs =>
    match cs.dropWhile isBlank with
    | [] => some []
    | '#' :: rest => (restOfLine? ('#' :: rest)).bind (skipSpace fuel)
    | rest =>
      match lineEnd? rest with
      | some rest => skipSpace fuel rest
      | none => some rest

def isWordChar (c : Char) : Bool :=
  c.isAlphanum || c == '_' || c == '-' || c == '+' || c == '.' || c == ':'

/-- A word and what is left. A date takes a time of day with it from behind a single space. -/
def word (cs : List Char) : List Char × List Char :=
  let w := cs.takeWhile isWordChar
  match date? w, cs.drop w.length with
  | some (_, []), ' ' :: c :: rest =>
    if c.isDigit then
      let time := (c :: rest).takeWhile isWordChar
      (w ++ ' ' :: time, (c :: rest).drop time.length)
    else (w, ' ' :: c :: rest)
  | _, rest => (w, rest)

mutual
def value? (depth : Nat) : (fuel : Nat) → List Char → Option (Tree × List Char)
  | 0, _ => none
  | fuel + 1, cs =>
    match cs with
    | '"' :: _ => (quoted? cs).map fun (s, rest) => (.text s, rest)
    | '\'' :: _ => (quoted? cs).map fun (s, rest) => (.text s, rest)
    | '[' :: rest => if depth < maxDepth then items? (depth + 1) [] fuel rest else none
    | '\x7b' :: rest => if depth < maxDepth then fields? (depth + 1) [] fuel rest else none
    | _ =>
      let (w, rest) := word cs
      (scalar? w).map fun t => (t, rest)

/-- The items of a list after those already read, which are given in reverse. -/
def items? (depth : Nat) (done : List Tree) : (fuel : Nat) → List Char → Option (Tree × List Char)
  | 0, _ => none
  | fuel + 1, cs => do
    match ← skipSpace cs.length cs with
    | ']' :: rest => pure (.list done.reverse, rest)
    | cs =>
      let (t, rest) ← value? depth fuel cs
      match ← skipSpace rest.length rest with
      | ',' :: rest => items? depth (t :: done) fuel rest
      | ']' :: rest => pure (.list (t :: done).reverse, rest)
      | _ => none

def fields? (depth : Nat) (done : Entries) : (fuel : Nat) → List Char → Option (Tree × List Char)
  | 0, _ => none
  | fuel + 1, cs => do
    match ← skipSpace cs.length cs with
    | '\x7d' :: rest => pure (.record (entriesTree done), rest)
    | cs =>
      let (key, rest) ← key? (cs.length + 1) cs
      match rest with
      | '=' :: rest =>
        let (t, rest) ← value? depth fuel (rest.dropWhile isBlank)
        let done ← addValue done key t
        match ← skipSpace rest.length rest with
        | ',' :: rest => fields? depth done fuel rest
        | '\x7d' :: rest => pure (.record (entriesTree done), rest)
        | _ => none
      | _ => none
end

structure Draft where
  entries : Entries
  header : List String

/-- Reads one line, or one value that runs over several, and gives the draft after it. -/
def line? (d : Draft) (cs : List Char) : Option (Draft × List Char) := do
  let fuel := cs.length + 1
  match cs.dropWhile isBlank with
  | '[' :: '[' :: rest =>
    let (name, rest) ← key? fuel rest
    match rest with
    | ']' :: ']' :: rest =>
      let entries ← underHeader openItem d.entries name
      let rest ← restOfLine? rest
      pure ({ entries, header := name }, rest)
    | _ => none
  | '[' :: rest =>
    let (name, rest) ← key? fuel rest
    match rest with
    | ']' :: rest =>
      let entries ← underHeader openTable d.entries name
      let rest ← restOfLine? rest
      pure ({ entries, header := name }, rest)
    | _ => none
  | rest =>
    match restOfLine? rest with
    | some rest => pure (d, rest)
    | none =>
      let (key, rest) ← key? fuel rest
      match rest with
      | '=' :: rest =>
        let (t, rest) ← value? 0 fuel (rest.dropWhile isBlank)
        let rest ← restOfLine? rest
        let entries ← addUnder d.header key t d.entries
        pure ({ d with entries }, rest)
      | _ => none

def lines? : (fuel : Nat) → Draft → List Char → Option Draft
  | 0, _, _ => none
  | _, d, [] => some d
  | fuel + 1, d, cs => (line? d cs).bind fun (d, rest) => lines? fuel d rest

/-- A mark of the byte order at the front does not count. -/
def withoutMark (cs : List Char) : List Char :=
  match cs with
  | '\ufeff' :: rest => rest
  | _ => cs

def readChars (cs : List Char) : Option Tree :=
  let cs := withoutMark cs
  (lines? (cs.length + 1) ⟨[], []⟩ cs).map fun d => .record (entriesTree d.entries)

def read (s : String) : Option Tree := readChars s.toList

end HealthProbe.Toml
