import HealthProbe.Time.Date
import HealthProbe.Tree

/-! # Numbers, moments and truth values

The words of a settings document that are not quoted. A moment is a record of one field, so that
nothing that expects a text takes it for one.
-/
namespace HealthProbe.Toml

/-- Digits with single underscores between them. -/
def digits? (isDigit : Char → Bool) : List Char → Option (List Char)
  | [] => none
  | [c] => if isDigit c then some [c] else none
  | c :: '_' :: d :: rest =>
    if isDigit c then (digits? isDigit (d :: rest)).map (c :: ·) else none
  | c :: rest => if isDigit c then (digits? isDigit rest).map (c :: ·) else none

def digitValue (c : Char) : Nat :=
  if c.isDigit then c.toNat - 48 else if c.toNat < 0x60 then c.toNat - 55 else c.toNat - 87

def valueIn (base : Nat) (ds : List Char) : Nat := ds.foldl (fun v d => base * v + digitValue d) 0

def isHex (c : Char) : Bool := c.isDigit || ('a' ≤ c && c ≤ 'f') || ('A' ≤ c && c ≤ 'F')
def isOctal (c : Char) : Bool := '0' ≤ c && c ≤ '7'
def isBinary (c : Char) : Bool := c == '0' || c == '1'

/-- Decimal digits that do not begin with a superfluous zero. -/
def wholeDigits? (cs : List Char) : Option (List Char) :=
  match digits? Char.isDigit cs with
  | some ('0' :: _ :: _) => none
  | r => r

def sign (cs : List Char) : Bool × List Char :=
  match cs with
  | '-' :: rest => (true, rest)
  | '+' :: rest => (false, rest)
  | _ => (false, cs)

def integer? (cs : List Char) : Option Int :=
  match cs with
  | '0' :: 'x' :: rest => (digits? isHex rest).map fun ds => (valueIn 16 ds : Int)
  | '0' :: 'o' :: rest => (digits? isOctal rest).map fun ds => (valueIn 8 ds : Int)
  | '0' :: 'b' :: rest => (digits? isBinary rest).map fun ds => (valueIn 2 ds : Int)
  | _ =>
    let (negative, rest) := sign cs
    (wholeDigits? rest).map fun ds =>
      if negative then -(valueIn 10 ds : Int) else (valueIn 10 ds : Int)

/-- The integers that any field could take lie between these. -/
def integerTree? (n : Int) : Option Tree :=
  if 0 ≤ n then if n.toNat < Nat.pow 2 128 then some (.nat n.toNat) else none
  else if n.natAbs ≤ Nat.pow 2 127 then some (.number (toString n))
  else none

structure Decimal where
  whole : List Char
  decimals : List Char
  exponent : Int

def exponent? (cs : List Char) : Option Int :=
  let (negative, rest) := sign cs
  (digits? Char.isDigit rest).map fun ds =>
    if negative then -(valueIn 10 ds : Int) else (valueIn 10 ds : Int)

def isExponentMark (c : Char) : Bool := c == 'e' || c == 'E'

def decimal? (cs : List Char) : Option Decimal := do
  let (_, cs) := sign cs
  let mantissa := cs.takeWhile fun c => !isExponentMark c
  let power := cs.drop mantissa.length
  let whole := mantissa.takeWhile (· != '.')
  let point := mantissa.drop whole.length
  if point.isEmpty && power.isEmpty then none
  else
    let whole ← wholeDigits? whole
    let decimals ← if point.isEmpty then pure [] else digits? Char.isDigit point.tail
    let exponent ← if power.isEmpty then pure 0 else exponent? power.tail
    pure { whole, decimals, exponent }

/-- The least magnitude that rounds beyond every number of 64 bits. -/
def floatLimit : Nat := Nat.pow 2 1024 - Nat.pow 2 970

/-- A decimal fraction small enough for 64 bits. Exponents that decide by themselves are not raised. -/
def Decimal.isFinite (d : Decimal) : Bool :=
  let m := valueIn 10 (d.whole ++ d.decimals)
  let e := d.exponent - d.decimals.length
  let size := (Nat.toDigits 10 m).length
  if m = 0 then true
  else if (size : Int) + e ≤ 308 then true
  else if 310 ≤ (size : Int) + e then false
  else if 0 ≤ e then m * Nat.pow 10 e.toNat < floatLimit
  else m < floatLimit * Nat.pow 10 (-e).toNat

def special? (cs : List Char) : Bool :=
  let (_, rest) := sign cs
  rest == ['i', 'n', 'f'] || rest == ['n', 'a', 'n']

/-! ## Moments -/

def twoDigits? : List Char → Option (Nat × List Char)
  | a :: b :: rest =>
    if a.isDigit && b.isDigit then some (valueIn 10 [a, b], rest) else none
  | _ => none

def passed (c : Char) : List Char → Option (List Char)
  | x :: rest => if x = c then some rest else none
  | [] => none

def date? (cs : List Char) : Option (List Char × List Char) := do
  let year := cs.take 4
  if year.length = 4 ∧ year.all Char.isDigit then
    let rest ← passed '-' (cs.drop 4)
    let (month, rest) ← twoDigits? rest
    let rest ← passed '-' rest
    let (day, rest) ← twoDigits? rest
    if 1 ≤ day ∧ day ≤ Time.monthLength (valueIn 10 year : Nat) month then pure (cs.take 10, rest)
    else none
  else none

/-- Decimals of a second, cut to nine, without zeros at the end. -/
def fractionText (ds : List Char) : List Char :=
  let ds := ((ds.take 9).reverse.dropWhile (· == '0')).reverse
  if ds.isEmpty then [] else '.' :: ds

/-- A time of day at the front; the seconds may be missing. -/
def clock? (cs : List Char) : Option (List Char × List Char) := do
  let (hour, rest) ← twoDigits? cs
  let rest ← passed ':' rest
  let (minute, rest) ← twoDigits? rest
  if 23 < hour ∨ 59 < minute then none
  else
    match rest with
    | ':' :: rest =>
      let (second, rest) ← twoDigits? rest
      if 60 < second then none
      else
        match rest with
        | '.' :: rest =>
          let ds := rest.takeWhile Char.isDigit
          if ds.isEmpty then none
          else pure (cs.take 8 ++ fractionText ds, rest.drop ds.length)
        | rest => pure (cs.take 8, rest)
    | rest => pure (cs.take 5, rest)

def zone? (cs : List Char) : Option (List Char) :=
  match cs with
  | [] => some []
  | ['Z'] => some ['Z']
  | ['z'] => some ['Z']
  | c :: rest =>
    if c = '+' ∨ c = '-' then do
      let (hour, rest) ← twoDigits? rest
      let rest ← passed ':' rest
      let (minute, rest) ← twoDigits? rest
      if 23 < hour ∨ 59 < minute ∨ rest ≠ [] then none else pure cs
    else none

def isDateMark (c : Char) : Bool := c == 'T' || c == 't' || c == ' '

def moment? (cs : List Char) : Option (List Char) :=
  match date? cs with
  | some (date, []) => some date
  | some (date, c :: rest) =>
    if isDateMark c then do
      let (clock, rest) ← clock? rest
      let zone ← zone? rest
      pure (date ++ 'T' :: clock ++ zone)
    else none
  | none =>
    match clock? cs with
    | some (clock, []) => some clock
    | _ => none

def momentField : String := "$__toml_private_datetime"

def scalar? (cs : List Char) : Option Tree :=
  if cs = ['t', 'r', 'u', 'e'] then some (.bool true)
  else if cs = ['f', 'a', 'l', 's', 'e'] then some (.bool false)
  else if special? cs then some (.number (String.ofList cs))
  else
    match integer? cs with
    | some n => integerTree? n
    | none =>
      match decimal? cs with
      | some d => if d.isFinite then some (.number (String.ofList cs)) else none
      | none =>
        (moment? cs).map fun m => .record [(momentField, .text (String.ofList m))]

end HealthProbe.Toml
