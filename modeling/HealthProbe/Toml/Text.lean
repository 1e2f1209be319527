/-! # Strings of a settings document

The four kinds of quoted text: with escapes or without, on one line or on several. A reader takes what
follows the opening quotes and gives the text and what is left behind the closing ones.
-/
namespace HealthProbe.Toml

abbrev Reading (α : Type) := Option (α × List Char)

def hexValue? (c : Char) : Option Nat :=
  if '0' ≤ c ∧ c ≤ '9' then some (c.toNat - 48)
  else if 'a' ≤ c ∧ c ≤ 'f' then some (c.toNat - 87)
  else if 'A' ≤ c ∧ c ≤ 'F' then some (c.toNat - 55)
  else none

def coded? (ds : List Char) : Option Char := do
  let values ← ds.mapM hexValue?
  let n := values.foldl (fun v d => 16 * v + d) 0
  if h : n.isValidChar then pure (Char.ofNatAux n h) else none

/-- Characters that may not stand in a document as they are; tabs may, and line ends are seen to by
those who allow them. -/
def isControl (c : Char) : Bool := (c.toNat < 0x20 && c != '\t') || c.toNat == 0x7f

def isBlank (c : Char) : Bool := c == ' ' || c == '\t'

def letter? : Char → Option Char
  | 'b' => some '\x08'
  | 't' => some '\t'
  | 'n' => some '\n'
  | 'f' => some '\x0c'
  | 'r' => some '\r'
  | 'e' => some '\x1b'
  | '"' => some '"'
  | '\\' => some '\\'
  | _ => none

def escape? : List Char → Reading Char
  | 'x' :: a :: b :: rest => (coded? [a, b]).map fun c => (c, rest)
  | 'u' :: a :: b :: c :: d :: rest => (coded? [a, b, c, d]).map fun c => (c, rest)
  | 'U' :: a :: b :: c :: d :: e :: f :: g :: h :: rest =>
    (coded? [a, b, c, d, e, f, g, h]).map fun c => (c, rest)
  | c :: rest => (letter? c).map fun c => (c, rest)
  | [] => none

def lineEnd? : List Char → Option (List Char)
  | '\n' :: rest => some rest
  | '\r' :: '\n' :: rest => some rest
  | _ => none

def push (c : Char) (r : Reading (List Char)) : Reading (List Char) :=
  r.map fun (cs, rest) => (c :: cs, rest)

def literal : List Char → Reading (List Char)
  | [] => none
  | c :: cs =>
    if c = '\'' then some ([], cs) else if isControl c then none else push c (literal cs)

def basic : (fuel : Nat) → List Char → Reading (List Char)
  | 0, _ => none
  | _, [] => none
  | fuel + 1, c :: cs =>
    if c = '"' then some ([], cs)
    else if c = '\\' then (escape? cs).bind fun (c, rest) => push c (basic fuel rest)
    else if isControl c then none
    else push c (basic fuel cs)

/-- Blanks and line ends at the front of a text are passed over, if a line end is among the first. -/
def skipLines : (fuel : Nat) → List Char → List Char
  | 0, cs => cs
  | fuel + 1, cs =>
    let cs := cs.dropWhile isBlank
    match lineEnd? cs with
    | some rest => skipLines fuel rest
    | none => cs

/-- Quotes at the front of a text over several lines: three or more close it, and up to two of them
belong to it. -/
def closing? (quote : Char) (cs : List Char) : Option (Reading (List Char)) :=
  let n := (cs.takeWhile (· == quote)).length
  if n < 3 then none
  else
    let n := min n 5
    some (some (List.replicate (n - 3) quote, cs.drop n))

/-- Text over several lines up to the closing quotes; escapes count only between double quotes. -/
def multiline (quote : Char) : (fuel : Nat) → List Char → Reading (List Char)
  | 0, _ => none
  | fuel + 1, cs =>
    match closing? quote cs with
    | some r => r
    | none =>
      match cs with
      | [] => none
      | '\r' :: '\n' :: rest => push '\r' (push '\n' (multiline quote fuel rest))
      | '\n' :: rest => push '\n' (multiline quote fuel rest)
      | c :: rest =>
        if c = '\\' ∧ quote = '"' then
          match lineEnd? (rest.dropWhile isBlank) with
          | some rest => multiline quote fuel (skipLines rest.length rest)
          | none => (escape? rest).bind fun (c, rest) => push c (multiline quote fuel rest)
        else if isControl c then none
        else push c (multiline quote fuel rest)

/-- A line end right behind the opening quotes does not belong to the text. -/
def openLines (cs : List Char) : List Char := (lineEnd? cs).getD cs

def quoted? (cs : List Char) : Reading String :=
  let fuel := cs.length + 1
  let r : Reading (List Char) :=
    match cs with
    | '"' :: '"' :: '"' :: rest => multiline '"' fuel (openLines rest)
    | '\'' :: '\'' :: '\'' :: rest => multiline '\'' fuel (openLines rest)
    | '"' :: rest => basic fuel rest
    | '\'' :: rest => literal rest
    | _ => none
  r.map fun (cs, rest) => (String.ofList cs, rest)

def isBareKeyChar (c : Char) : Bool := c.isAlphanum || c == '-' || c == '_'

def keyPart? (cs : List Char) : Reading String :=
  match cs with
  | '"' :: rest => (basic (cs.length + 1) rest).map fun (k, rest) => (String.ofList k, rest)
  | '\'' :: rest => (literal rest).map fun (k, rest) => (String.ofList k, rest)
  | _ =>
    let k := cs.takeWhile isBareKeyChar
    if k.isEmpty then none else some (String.ofList k, cs.drop k.length)

def key? : (fuel : Nat) → List Char → Option (List String × List Char)
  | 0, _ => none
  | fuel + 1, cs => do
    let (k, rest) ← keyPart? (cs.dropWhile isBlank)
    match rest.dropWhile isBlank with
    | '.' :: rest =>
      let (ks, rest) ← key? fuel rest
      pure (k :: ks, rest)
    | rest => pure ([k], rest)

end HealthProbe.Toml
