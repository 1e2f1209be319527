/-! # Internet addresses

Addresses of both families with their text: four decimal octets, or eight hexadecimal groups of which
the longest run of two or more zero groups (the first of equally long ones) is left out. Octets are
read without leading zeros; groups take up to four digits, and the last two may be written as octets.
-/
namespace HealthProbe

inductive Address
  | v4 (a b c d : UInt8)
  | v6 (groups : List UInt16) (eight : groups.length = 8)
  deriving DecidableEq, Repr

namespace Address

def hexValue? (c : Char) : Option Nat :=
  if '0' ≤ c ∧ c ≤ '9' then some (c.toNat - 48)
  else if 'a' ≤ c ∧ c ≤ 'f' then some (c.toNat - 87)
  else if 'A' ≤ c ∧ c ≤ 'F' then some (c.toNat - 55)
  else none

def spanDigits (digit? : Char → Option Nat) : List Char → List Nat × List Char
  | [] => ([], [])
  | c :: cs =>
    match digit? c with
    | some n => let (ns, rest) := spanDigits digit? cs; (n :: ns, rest)
    | none => ([], c :: cs)

def decimal? (c : Char) : Option Nat := if c.isDigit then some (c.toNat - 48) else none

def valueIn (base : Nat) (ns : List Nat) : Nat := ns.foldl (fun v n => base * v + n) 0

def octet? (cs : List Char) : Option (UInt8 × List Char) :=
  let (ns, rest) := spanDigits decimal? cs
  if ns = [] ∨ 3 < ns.length ∨ (ns.head? = some 0 ∧ ns.length ≠ 1) ∨ 255 < valueIn 10 ns then none
  else some (UInt8.ofNat (valueIn 10 ns), rest)

def expect (c : Char) : List Char → Option (List Char)
  | x :: rest => if x = c then some rest else none
  | [] => none

def octets? (cs : List Char) : Option ((UInt8 × UInt8 × UInt8 × UInt8) × List Char) := do
  let (a, cs) ← octet? cs
  let cs ← expect '.' cs
  let (b, cs) ← octet? cs
  let cs ← expect '.' cs
  let (c, cs) ← octet? cs
  let cs ← expect '.' cs
  let (d, cs) ← octet? cs
  pure ((a, b, c, d), cs)

def group? (cs : List Char) : Option (UInt16 × List Char) :=
  let (ns, rest) := spanDigits hexValue? cs
  if ns = [] ∨ 4 < ns.length then none else some (UInt16.ofNat (valueIn 16 ns), rest)

def pair (a b : UInt8) : UInt16 := UInt16.ofNat (256 * a.toNat + b.toNat)

/-- At most `limit` groups at the front of a text, each after the first behind a colon; octets count
for two groups and come last. The flag tells whether there were octets. -/
def groups? (first : Bool) (cs : List Char) : (limit : Nat) → List UInt16 × Bool × List Char
  | 0 => ([], false, cs)
  | limit + 1 =>
    let start := if first then some cs else expect ':' cs
    match start with
    | none => ([], false, cs)
    | some front =>
      match (if 0 < limit then octets? front else none) with
      | some ((a, b, c, d), rest) => ([pair a b, pair c d], true, rest)
      | none =>
        match group? front with
        | none => ([], false, cs)
        | some (g, rest) =>
          let (gs, mixed, rest) := groups? false rest limit
          (g :: gs, mixed, rest)

def ofGroups? (gs : List UInt16) : Option Address :=
  if h : gs.length = 8 then some (v6 gs h) else none

def readV6? (cs : List Char) : Option (Address × List Char) :=
  let (front, mixed, rest) := groups? true cs 8
  if front.length = 8 then (ofGroups? front).map fun a => (a, rest)
  else if mixed then none
  else do
    let rest ← expect ':' rest
    let rest ← expect ':' rest
    let (back, _, rest) := groups? true rest (7 - front.length)
    let zeros := List.replicate (8 - front.length - back.length) 0
    (ofGroups? (front ++ zeros ++ back)).map fun a => (a, rest)

def readChars (cs : List Char) : Option Address :=
  match octets? cs with
  | some ((a, b, c, d), rest) => if rest = [] then some (v4 a b c d) else none
  | none =>
    match readV6? cs with
    | some (a, rest) => if rest = [] then some a else none
    | none => none

def read (s : String) : Option Address := readChars s.toList

def octetChars (n : UInt8) : List Char := Nat.toDigits 10 n.toNat

def groupChars (g : UInt16) : List Char := Nat.toDigits 16 g.toNat

def dotted (a b c d : UInt8) : List Char :=
  octetChars a ++ '.' :: octetChars b ++ '.' :: octetChars c ++ '.' :: octetChars d

def colons : List UInt16 → List Char
  | [] => []
  | [g] => groupChars g
  | g :: h :: gs => groupChars g ++ ':' :: colons (h :: gs)

def zerosAtFront (gs : List UInt16) : Nat := (gs.takeWhile (· == 0)).length

/-- Where the first of the longest runs of zeros begins, and its length. -/
def longestZeros : List UInt16 → Nat × Nat
  | [] => (0, 0)
  | g :: gs =>
    let here := zerosAtFront (g :: gs)
    let (at_, length) := longestZeros gs
    if length ≤ here then (0, here) else (at_ + 1, length)

/-- The octets of an address that stands for one of the other family. -/
def mapped? : List UInt16 → Option (UInt8 × UInt8 × UInt8 × UInt8)
  | [0, 0, 0, 0, 0, 0xffff, x, y] =>
    some (UInt8.ofNat (x.toNat / 256), UInt8.ofNat (x.toNat % 256),
      UInt8.ofNat (y.toNat / 256), UInt8.ofNat (y.toNat % 256))
  | _ => none

def groupsChars (gs : List UInt16) : List Char :=
  let (start, length) := longestZeros gs
  if 1 < length then colons (gs.take start) ++ ':' :: ':' :: colons (gs.drop (start + length))
  else colons gs

def chars : Address → List Char
  | v4 a b c d => dotted a b c d
  | v6 gs _ =>
    match mapped? gs with
    | some (a, b, c, d) => ':' :: ':' :: 'f' :: 'f' :: 'f' :: 'f' :: ':' :: dotted a b c d
    | none => groupsChars gs

def text (a : Address) : String := String.ofList a.chars

def socket (a : Address) (port : Nat) : String :=
  match a with
  | v4 .. => a.text ++ ":" ++ toString port
  | v6 .. => "[" ++ a.text ++ "]:" ++ toString port

example : (read "::1").map text = some "::1" := by decide +kernel
example : (read "2001:db8:0:0:1:0:0:1").map text = some "2001:db8::1:0:0:1" := by decide +kernel
example : (read "::ffff:1.2.3.4").map text = some "::ffff:1.2.3.4" := by decide +kernel
example : read "01.2.3.4" = none := by decide +kernel

end Address
end HealthProbe
