import HealthProbe.Dns.Exchange

/-! # The wire format

A codec for want of a library: it reads the text of a name, writes messages without pointers, and reads
messages with them.

In the text of a name the labels stand between dots. A backslash takes the next character as it stands, or
the three octal digits after it as the number of a character; an escape that the end of the text cuts off
counts for nothing. On the wire there are a header of twelve bytes, then questions and records in four
sections. A name may end in a pointer to a place before its own start; every place that is followed comes
before the one that it was followed from, so following ends. Bytes after the last section do not count.
Record data of the kinds that are not listed in `isData` are taken as they stand.
-/
namespace HealthProbe

namespace DomainName

def maxLabel : Nat := 63

def octal? (c : Char) : Option Nat := if '0' ≤ c ∧ c ≤ '7' then some (c.toNat - 48) else none

/-- The labels of a text, the current one begun with characters in reverse. -/
def labelsFrom (current : List Char) : List Char → Option (List (List Char))
  | [] => some (if current.isEmpty then [] else [current.reverse])
  | ['\\'] => labelsFrom current []
  | '\\' :: a :: rest =>
    if a.isDigit then
      match rest with
      | [] => (octal? a).bind fun _ => labelsFrom current []
      | [b] => (octal? a).bind fun _ => (octal? b).bind fun _ => labelsFrom current []
      | b :: c :: rest =>
        (octal? a).bind fun i => (octal? b).bind fun j => (octal? c).bind fun k =>
          labelsFrom (Char.ofNat (64 * i + 8 * j + k) :: current) rest
    else labelsFrom (a :: current) rest
  | c :: rest =>
    if c = '.' then (labelsFrom [] rest).map (current.reverse :: ·)
    else labelsFrom (c :: current) rest

def isAlnum (c : Char) : Bool := c.isAlpha || c.isDigit

def mayStart (c : Char) : Bool := isAlnum c || c == '_' || c == '.' || c == '*'

def mayFollow (c : Char) : Bool := isAlnum c || c == '_' || c == '.' || c == '-'

/-- A label of good characters: a star may only stand first, a hyphen anywhere else. -/
def isLabel : List Char → Bool
  | [] => false
  | c :: cs => mayStart c && cs.all mayFollow && cs.length < maxLabel

def byte (c : Char) : UInt8 := UInt8.ofNat c.toNat

def ofLabels? (cs : List Char) : Option DomainName := do
  let labels ← labelsFrom [] cs
  let name : DomainName := ⟨labels.map (List.map byte)⟩
  if labels.all isLabel && name.size ≤ maxSize then some name else none

end DomainName

namespace Dns

def word (hi lo : UInt8) : UInt16 := UInt16.ofNat (256 * hi.toNat + lo.toNat)

def wordBytes (w : UInt16) : List UInt8 := [UInt8.ofNat (w.toNat / 256), UInt8.ofNat (w.toNat % 256)]

/-! ## Writing -/

def labelBytes (l : List UInt8) : List UInt8 := UInt8.ofNat l.length :: l

def nameBytes (n : DomainName) : List UInt8 := n.labels.flatMap labelBytes ++ [0]

def Question.bytes (q : Question) : List UInt8 :=
  nameBytes q.name ++ (wordBytes q.kind ++ wordBytes q.scope)

def Record.bytes (r : Record) : List UInt8 :=
  nameBytes r.name ++ wordBytes r.kind ++ wordBytes r.scope ++ r.lifetime ++
    wordBytes (UInt16.ofNat r.data.length) ++ r.data

def Message.flags (m : Message) : List UInt8 :=
  [UInt8.ofNat ((if m.response then 128 else 0) + 8 * m.opcode + if m.recursionDesired then 1 else 0),
   UInt8.ofNat m.code]

def countBytes {α : Type} (xs : List α) : List UInt8 := wordBytes (UInt16.ofNat xs.length)

def Message.bytes (m : Message) : List UInt8 :=
  wordBytes m.id ++ m.flags ++ countBytes m.questions ++ countBytes m.answers ++
    countBytes m.authorities ++ countBytes m.additions ++
    m.questions.flatMap Question.bytes ++ (m.answers ++ m.authorities ++ m.additions).flatMap Record.bytes

def Message.names (m : Message) : List DomainName :=
  m.questions.map Question.name ++ (m.answers ++ m.authorities ++ m.additions).map Record.name

/-! ## Reading names -/

inductive RunEnd
  | root
  | pointer (place : Nat)
  deriving DecidableEq, Repr

/-- The labels from a place on, where `bytes` are what stands there, up to the end of the run, and the
place after it. No part of the run may begin at `bound` or beyond. -/
def labelRun? (bound : Option Nat) (place : Nat) (bytes : List UInt8) :
    Option (List (List UInt8) × RunEnd × Nat) :=
  if bound.any (· ≤ place) then none
  else
    match bytes with
    | [] => none
    | n :: rest =>
      if n = 0 then some ([], .root, place + 1)
      else if n.toNat < 64 then
        if n.toNat ≤ rest.length then
          (labelRun? bound (place + 1 + n.toNat) (rest.drop n.toNat)).map fun (ls, e, next) =>
            (rest.take n.toNat :: ls, e, next)
        else none
      else if 192 ≤ n.toNat then
        match rest with
        | m :: _ => some ([], .pointer (256 * (n.toNat - 192) + m.toNat), place + 2)
        | [] => none
      else none
termination_by bytes.length
decreasing_by
  simp only [List.length_drop, List.length_cons]
  omega

def labels? (message : List UInt8) (bound : Option Nat) (place : Nat) :
    Option (List (List UInt8) × Nat) :=
  match labelRun? bound place (message.drop place) with
  | none => none
  | some (ls, .root, next) => some (ls, next)
  | some (ls, .pointer p, next) =>
    if p < place then (labels? message (some place) p).map fun (more, _) => (ls ++ more, next)
    else none
termination_by place

def name? (message : List UInt8) (place : Nat) : Option (DomainName × Nat) := do
  let (ls, next) ← labels? message none place
  let n : DomainName := ⟨ls⟩
  if n.size < DomainName.maxSize then some (n, next) else none

/-! ## Reading sections -/

def word? (message : List UInt8) (place : Nat) : Option (UInt16 × Nat) :=
  match message.drop place with
  | hi :: lo :: _ => some (word hi lo, place + 2)
  | _ => none

def bytes? (message : List UInt8) (n place : Nat) : Option (List UInt8 × Nat) :=
  let found := (message.drop place).take n
  if found.length = n then some (found, place + n) else none

def question? (message : List UInt8) (place : Nat) : Option (Question × Nat) := do
  let (name, place) ← name? message place
  let (kind, place) ← word? message place
  let (scope, place) ← word? message place
  some (⟨name, kind, scope⟩, place)

def fillsName (message : List UInt8) (place stop : Nat) : Bool :=
  ((name? message place).map Prod.snd) == some stop

def areStrings (bytes : List UInt8) : Bool :=
  match bytes with
  | [] => true
  | n :: rest => n.toNat ≤ rest.length && areStrings (rest.drop n.toNat)
termination_by bytes.length

/-- Whether the options of an extension record make sense. None may claim more than the whole record; one
that is cut off ends them. -/
def areOptions (whole : Nat) (bytes : List UInt8) : Bool :=
  match bytes with
  | _ :: _ :: hi :: lo :: rest =>
    (word hi lo).toNat ≤ whole && areOptions whole (rest.drop (word hi lo).toNat)
  | _ => true
termination_by bytes.length

def kindExtension : UInt16 := 41

/-- Whether the data of a record of a kind, which stand from one place to another, make sense. -/
def isData (message : List UInt8) (kind : UInt16) (place stop : Nat) : Bool :=
  let bytes := (message.drop place).take (stop - place)
  if kind = kindA then bytes.length == 4
  else if kind = 28 then bytes.length == 16
  else if kind = 2 ∨ kind = 5 ∨ kind = 12 then fillsName message place stop
  else if kind = 15 then fillsName message (place + 2) stop
  else if kind = 33 then fillsName message (place + 6) stop
  else if kind = 6 then
    match name? message place with
    | none => false
    | some (_, next) => 20 ≤ stop && fillsName message next (stop - 20)
  else if kind = 16 then areStrings bytes
  else if kind = kindExtension then areOptions bytes.length bytes
  else !(kind = 0 || kind = 251 || kind = 252 || kind = 255)

def record? (message : List UInt8) (place : Nat) : Option (Record × Nat) := do
  let (name, place) ← name? message place
  let (kind, place) ← word? message place
  let (scope, place) ← word? message place
  let (lifetime, place) ← bytes? message 4 place
  let (length, place) ← word? message place
  let (data, next) ← bytes? message length.toNat place
  if kind = kindExtension ∧ name.labels ≠ [] then none
  else if data.isEmpty || isData message kind place next then
    some (⟨name, kind, scope, lifetime, data⟩, next)
  else none

def items? {α : Type} (item? : Nat → Option (α × Nat)) : Nat → Nat → Option (List α × Nat)
  | 0, place => some ([], place)
  | n + 1, place => do
    let (x, place) ← item? place
    let (xs, place) ← items? item? n place
    some (x :: xs, place)

def isOpcode (n : Nat) : Bool := n == 0 || n == 2 || n == 4 || n == 5

/-- The message that bytes spell. Only one extension record may stand among the additions. -/
def Message.ofBytes? (bytes : List UInt8) : Option Message :=
  match bytes with
  | i :: j :: high :: low :: q1 :: q2 :: a1 :: a2 :: u1 :: u2 :: d1 :: d2 :: _ => do
    let opcode := high.toNat / 8 % 16
    if !isOpcode opcode then none
    else
      let (questions, place) ← items? (question? bytes) (word q1 q2).toNat 12
      let (answers, place) ← items? (record? bytes) (word a1 a2).toNat place
      let (authorities, place) ← items? (record? bytes) (word u1 u2).toNat place
      let (additions, _) ← items? (record? bytes) (word d1 d2).toNat place
      if 1 < (additions.filter fun r => r.kind == kindExtension).length then none
      else
        some { id := word i j, response := 128 ≤ high.toNat, opcode
               recursionDesired := high.toNat % 2 == 1, code := low.toNat % 16
               questions, answers, authorities, additions }
  | _ => none

/-! ## The codec -/

def tooLong : String := "name label data exceed 255: 256"

def unaskable : CheckFailure := unwritten tooLong

/-- With the byte that ends it a name must not take more than 255 bytes. -/
instance wire : Codec where
  name cs := (DomainName.ofLabels? cs).elim (.error "不是域名") .ok
  write m := if m.names.all fun n => n.size < DomainName.maxSize then .ok m.bytes else .error tooLong
  read bytes := (Message.ofBytes? bytes).elim (.error "无法解析") .ok

end Dns
end HealthProbe
