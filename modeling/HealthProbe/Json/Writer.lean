import HealthProbe.Tree

/-! # Trees as JSON text

Two layouts of one notation: all on one line without blanks, and one item a line with two more spaces
for each level. Empty lists and records keep to one line in both.
-/
namespace HealthProbe.Json

def hexDigit (n : Nat) : Char := (Nat.digitChar (n % 16))

/-- A character inside quotes. Controls without a letter of their own are spelled by their code. -/
def escaped (c : Char) : List Char :=
  match c with
  | '"' => ['\\', '"']
  | '\\' => ['\\', '\\']
  | '\x08' => ['\\', 'b']
  | '\x0c' => ['\\', 'f']
  | '\n' => ['\\', 'n']
  | '\r' => ['\\', 'r']
  | '\t' => ['\\', 't']
  | c =>
    if c.toNat < 0x20 then ['\\', 'u', '0', '0', hexDigit (c.toNat / 16), hexDigit c.toNat] else [c]

def string (s : String) : List Char := '"' :: s.toList.flatMap escaped ++ ['"']

mutual
def compact : Tree → List Char
  | .null => ['n', 'u', 'l', 'l']
  | .bool true => ['t', 'r', 'u', 'e']
  | .bool false => ['f', 'a', 'l', 's', 'e']
  | .nat n => Nat.toDigits 10 n
  | .number t => t.toList
  | .text s => string s
  | .brokenText => ['"', '"']
  | .list xs => '[' :: compactItems xs
  | .record fs => '\x7b' :: compactFields fs

def compactItems : List Tree → List Char
  | [] => [']']
  | [x] => compact x ++ [']']
  | x :: y :: xs => compact x ++ ',' :: compactItems (y :: xs)

def compactFields : List (String × Tree) → List Char
  | [] => ['\x7d']
  | [(k, x)] => string k ++ ':' :: compact x ++ ['\x7d']
  | (k, x) :: f :: fs => string k ++ ':' :: compact x ++ ',' :: compactFields (f :: fs)
end

def newLine (level : Nat) : List Char := '\n' :: List.replicate (2 * level) ' '

mutual
/-- A value whose own line stands at `level`. -/
def pretty (level : Nat) : Tree → List Char
  | .null => ['n', 'u', 'l', 'l']
  | .bool true => ['t', 'r', 'u', 'e']
  | .bool false => ['f', 'a', 'l', 's', 'e']
  | .nat n => Nat.toDigits 10 n
  | .number t => t.toList
  | .text s => string s
  | .brokenText => ['"', '"']
  | .list [] => ['[', ']']
  | .list (x :: xs) => '[' :: prettyItems level (x :: xs)
  | .record [] => ['\x7b', '\x7d']
  | .record (f :: fs) => '\x7b' :: prettyFields level (f :: fs)

def prettyItems (level : Nat) : List Tree → List Char
  | [] => newLine level ++ [']']
  | [x] => newLine (level + 1) ++ pretty (level + 1) x ++ newLine level ++ [']']
  | x :: y :: xs =>
    newLine (level + 1) ++ pretty (level + 1) x ++ ',' :: prettyItems level (y :: xs)

def prettyFields (level : Nat) : List (String × Tree) → List Char
  | [] => newLine level ++ ['\x7d']
  | [(k, x)] =>
    newLine (level + 1) ++ string k ++ ':' :: ' ' :: pretty (level + 1) x ++ newLine level ++ ['\x7d']
  | (k, x) :: f :: fs =>
    newLine (level + 1) ++ string k ++ ':' :: ' ' :: pretty (level + 1) x ++
      ',' :: prettyFields level (f :: fs)
end

def line (t : Tree) : String := String.ofList (compact t)

def page (t : Tree) : String := String.ofList (pretty 0 t)

end HealthProbe.Json
