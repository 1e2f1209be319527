import HealthProbe.Span
import HealthProbe.Text.Blank
import HealthProbe.Time.Date

/-! # Stamps

Moments in universal time to the nanosecond. A leap second is the last second of its minute with a
thousand million nanoseconds more. The text is the usual one with a `Z`; reading is generous with
blanks, short fields and offsets.
-/
namespace HealthProbe.Time

structure Stamp where
  date : Date
  minute : Nat
  second : Nat
  nanos : Nat
  minute_lt : minute < 1440
  second_lt : second < 60
  nanos_lt : nanos < 2000000000
  leap : 1000000000 ≤ nanos → second = 59
  deriving DecidableEq, Repr

namespace Stamp

def of? (date : Date) (minute second nanos : Nat) : Option Stamp :=
  if h : minute < 1440 ∧ second < 60 ∧ nanos < 2000000000 ∧ (1000000000 ≤ nanos → second = 59) then
    some ⟨date, minute, second, nanos, h.1, h.2.1, h.2.2.1, h.2.2.2⟩
  else none

@[simp] theorem of?_fields (t : Stamp) : of? t.date t.minute t.second t.nanos = some t := by
  exact dif_pos ⟨t.minute_lt, t.second_lt, t.nanos_lt, t.leap⟩

def epoch : Stamp :=
  ⟨⟨1970, 1, 1, by decide, by decide, by decide, by decide⟩, 0, 0, 0, by decide, by decide, by decide,
    by decide⟩

instance : Inhabited Stamp := ⟨epoch⟩

/-! ## Writing -/

/-- Years of four digits stand alone; any other has a sign, and at least four digits too. -/
def yearChars (y : Int) : List Char :=
  if 0 ≤ y ∧ y ≤ 9999 then Span.padded 4 y.toNat
  else (if y < 0 then '-' else '+') :: Span.padded 4 y.natAbs

/-- A fraction of 0, 3, 6 or 9 digits, the fewest that lose nothing. -/
def fractionChars (n : Nat) : List Char :=
  if n = 0 then []
  else if n % 1000000 = 0 then '.' :: Span.padded 3 (n / 1000000)
  else if n % 1000 = 0 then '.' :: Span.padded 6 (n / 1000)
  else '.' :: Span.padded 9 n

def chars (t : Stamp) : List Char :=
  let (second, nanos) :=
    if 1000000000 ≤ t.nanos then (t.second + 1, t.nanos - 1000000000) else (t.second, t.nanos)
  yearChars t.date.year ++ '-' :: Span.padded 2 t.date.month ++ '-' :: Span.padded 2 t.date.day ++
    'T' :: Span.padded 2 (t.minute / 60) ++ ':' :: Span.padded 2 (t.minute % 60) ++
    ':' :: Span.padded 2 second ++ fractionChars nanos ++ ['Z']

def text (t : Stamp) : String := String.ofList t.chars

def textWithOffset (t : Stamp) : String := String.ofList t.chars.dropLast ++ "+00:00"

/-! ## Reading -/

/-- Up to `limit` digits at the front, at least one. -/
def digits? (limit : Option Nat) (cs : List Char) : Option (List Char × List Char) :=
  let run := cs.takeWhile Char.isDigit
  let run := match limit with
    | some n => run.take n
    | none => run
  if run.isEmpty then none else some (run, cs.drop run.length)

def natOf (ds : List Char) : Nat := ds.foldl (fun n c => 10 * n + (c.toNat - 48)) 0

/-- A field of one or two digits after any blanks. -/
def field? (cs : List Char) : Option (Nat × List Char) :=
  (digits? (some 2) (Text.trimStart cs)).map fun (ds, rest) => (natOf ds, rest)

/-- A year: four digits at most, or any number of them behind a sign. -/
def year? (cs : List Char) : Option (Int × List Char) :=
  match Text.trimStart cs with
  | '-' :: rest => (digits? none rest).map fun (ds, rest) => (-(natOf ds : Int), rest)
  | '+' :: rest => (digits? none rest).map fun (ds, rest) => ((natOf ds : Int), rest)
  | cs => (digits? (some 4) cs).map fun (ds, rest) => ((natOf ds : Int), rest)

def mark? (c : Char) (cs : List Char) : Option (List Char) :=
  match Text.trimStart cs with
  | x :: rest => if x = c then some rest else none
  | [] => none

/-- The nanoseconds after a point; what goes beyond nine digits is cut. -/
def nanos? (cs : List Char) : Option (Nat × List Char) :=
  match cs with
  | '.' :: rest =>
    (digits? (some 9) rest).map fun (ds, rest) =>
      (natOf ds * Nat.pow 10 (9 - ds.length), rest.dropWhile Char.isDigit)
  | cs => some (0, cs)

def isColonOrBlank (c : Char) : Bool := c == ':' || Text.isBlank c

def twoDigits? : List Char → Option (Nat × List Char)
  | a :: b :: rest => if a.isDigit && b.isDigit then some (natOf [a, b], rest) else none
  | _ => none

def offset? (cs : List Char) : Option (Int × List Char) :=
  match cs with
  | 'Z' :: rest => some (0, rest)
  | 'z' :: rest => some (0, rest)
  | a :: b :: c :: rest =>
    if a.toUpper = 'U' ∧ b.toUpper = 'T' ∧ c.toUpper = 'C' then some (0, rest)
    else
      let sign? : Option Int :=
        if a = '+' then some 1 else if a = '-' ∨ a = '\u2212' then some (-1) else none
      match sign? with
      | none => none
      | some sign => do
        let (hours, rest) ← twoDigits? (b :: c :: rest)
        let (minutes, rest) ← twoDigits? (rest.dropWhile isColonOrBlank)
        if minutes < 60 then pure (sign * (60 * hours + minutes : Nat), rest) else none
  | _ => none

/-- The stamp of a local time that is ahead of universal time by an offset of less than a day. -/
def shifted? (date : Date) (minute second nanos : Nat) (offset : Int) : Option Stamp :=
  if -1440 < offset ∧ offset < 1440 then
    let m := (minute : Int) - offset
    if m < 0 then date.previous?.bind fun d => of? d (m + 1440).toNat second nanos
    else if 1440 ≤ m then date.next?.bind fun d => of? d (m - 1440).toNat second nanos
    else of? date m.toNat second nanos
  else none

def readChars (cs : List Char) : Option Stamp := do
  let (year, cs) ← year? cs
  let cs ← mark? '-' cs
  let (month, cs) ← field? cs
  let cs ← mark? '-' cs
  let (day, cs) ← field? cs
  let cs ← match cs with
    | c :: rest => if c = 'T' ∨ c = 't' ∨ c = ' ' then some rest else none
    | [] => none
  let (hour, cs) ← field? cs
  let cs ← mark? ':' cs
  let (minute, cs) ← field? cs
  let cs ← mark? ':' cs
  let (second, cs) ← field? cs
  let (nanos, cs) ← nanos? cs
  let (offset, cs) ← offset? (Text.trimStart cs)
  let date ← Date.of? year month day
  if Text.trimStart cs ≠ [] ∨ 24 ≤ hour ∨ 60 ≤ minute ∨ 60 < second then none
  else if second = 60 then shifted? date (60 * hour + minute) 59 (nanos + 1000000000) offset
  else shifted? date (60 * hour + minute) second nanos offset

def read (s : String) : Option Stamp := readChars s.toList

end Stamp
end HealthProbe.Time
