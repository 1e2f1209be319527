import HealthProbe.Text.Pieces

/-! # Request targets

From the path of a probe to the target in its request line: tabs and line ends go, and so do blanks at
the end and everything from a number sign on; dot segments are resolved, and what may not stand in a
path or a query as it is gets percent-encoded.
-/
namespace HealthProbe.Http

def rooted (path : String) : String := if path.toList.head? = some '/' then path else "/" ++ path

def isControl (c : Char) : Bool := c.toNat < 0x20 || c.toNat == 0x7f

def quotedInQuery (c : Char) : Bool :=
  isControl c || 0x80 ≤ c.toNat || [' ', '"', '#', '<', '>', '\''].contains c

def quotedInPath (c : Char) : Bool :=
  isControl c || 0x80 ≤ c.toNat || [' ', '"', '#', '<', '>', '?', '^', '\x60', '\x7b', '\x7d'].contains c

def upperHex (n : Nat) : Char := (Nat.digitChar (n % 16)).toUpper

def percentByte (b : UInt8) : List Char := ['%', upperHex (b.toNat / 16), upperHex b.toNat]

def encoded (isQuoted : Char → Bool) (cs : List Char) : List Char :=
  cs.flatMap fun c =>
    if isQuoted c then (String.singleton c).toUTF8.toList.flatMap percentByte else [c]

def isDot (s : List Char) : Bool :=
  let s := s.map Char.toLower
  s == ['.'] || s == ['%', '2', 'e']

def isDotDot (s : List Char) : Bool :=
  let s := s.map Char.toLower
  let dots := [['.'], ['%', '2', 'e']]
  dots.any fun a => dots.any fun b => s == a ++ b

/-- Segments without dot segments; those before are in reverse. A dot segment at the end leaves an empty
one. -/
def resolve (before : List (List Char)) : List (List Char) → List (List Char)
  | [] => before.reverse
  | s :: rest =>
    let before := if isDotDot s then before.drop 1 else if isDot s then before else s :: before
    let before := if rest.isEmpty && (isDot s || isDotDot s) then [] :: before else before
    resolve before rest

def target (path : String) : String :=
  let cs := ((rooted path).toList.reverse.dropWhile fun c => c.toNat ≤ 0x20).reverse
  let cs := cs.filter fun c => !(c == '\t' || c == '\n' || c == '\r')
  let (cs, _) := Text.cut '#' cs
  let (path, query) := Text.cut '?' cs
  let path := path.map fun c => if c = '\\' then '/' else c
  let segments := resolve [] ((Text.pieces '/' path).drop 1)
  let path := '/' :: Text.join '/' (segments.map (encoded quotedInPath))
  String.ofList (path ++ (query.map fun q => '?' :: encoded quotedInQuery q).getD [])

end HealthProbe.Http
