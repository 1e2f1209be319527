import HealthProbe.Failure
import HealthProbe.Http.Target

/-! # Replies of web servers

Any reply shows that its server is reachable, once its head is complete and well formed: a status line
with three digits, header lines, and an empty line. Empty lines in front do not count.
-/
namespace HealthProbe.Http

def lineEnd? : List UInt8 → Option (List UInt8)
  | 13 :: 10 :: rest => some rest
  | 10 :: rest => some rest
  | _ => none

def withoutEmptyLines : List UInt8 → List UInt8
  | 13 :: 10 :: rest => withoutEmptyLines rest
  | 10 :: rest => withoutEmptyLines rest
  | bs => bs

def isFieldByte (b : UInt8) : Bool := b == 9 || (0x20 ≤ b && b != 0x7f)

def isTokenByte (b : UInt8) : Bool :=
  let c := Char.ofNat b.toNat
  c.isAlpha || c.isDigit || "!#$%&'*+-.^_|~\x60".toList.contains c

def afterFields (bs : List UInt8) : Option (List UInt8) := lineEnd? (bs.dropWhile isFieldByte)

/-- A status of three digits, from one hundred on. -/
def isStatus (a b c : UInt8) : Bool :=
  [a, b, c].all (fun d => 48 ≤ d && d ≤ 57) && 49 ≤ a

def afterStatusLine? : List UInt8 → Option (List UInt8)
  | 72 :: 84 :: 84 :: 80 :: 47 :: 49 :: 46 :: minor :: 32 :: a :: b :: c :: rest =>
    if (minor == 48 || minor == 49) && isStatus a b c then
      match rest with
      | 32 :: rest => afterFields rest
      | rest => lineEnd? rest
    else none
  | _ => none

def afterHeader? (bs : List UInt8) : Option (List UInt8) :=
  if (bs.takeWhile isTokenByte).isEmpty then none
  else
    match bs.dropWhile isTokenByte with
    | 58 :: rest => afterFields rest
    | _ => none

/-- Whether header lines and an empty line stand at the front. There are no more lines than bytes. -/
def areHeaders : Nat → List UInt8 → Bool
  | 0, _ => false
  | n + 1, bs => (lineEnd? bs).isSome || (afterHeader? bs).any (areHeaders n)

def isReply (bs : List UInt8) : Bool :=
  (afterStatusLine? (withoutEmptyLines bs)).any fun rest => areHeaders (rest.length + 1) rest

inductive End
  | replied (bytes : List UInt8)
  | timedOut
  | refused
  deriving DecidableEq, Repr

def url (socket path : String) : String := "http://" ++ socket ++ rooted path

def End.result (socket path : String) : End → Except CheckFailure Unit
  | replied bs => if isReply bs then .ok () else failed "Invalid request"
  | timedOut => failed "Request timeout"
  | refused => failed "Connection refused"
where
  failed (reason : String) : Except CheckFailure Unit := .error (.probe (url socket path ++ ": " ++ reason))

def request (agent socket path : String) : String × List String :=
  ("GET " ++ target path ++ " HTTP/1.1", ["accept: */*", "host: " ++ socket, "user-agent: " ++ agent])

end HealthProbe.Http
