/-! # Spans of time

A length of time in nanoseconds, and its text: the largest of s, ms, µs and ns whose whole part is not
zero, with the fraction that is left and no trailing zeros.
-/
namespace HealthProbe

structure Span where
  nanos : Nat
  deriving DecidableEq, Repr, Inhabited

namespace Span

def ofMillis (n : Nat) : Span := ⟨n * 1000000⟩

def padded (width n : Nat) : List Char :=
  let digits := Nat.toDigits 10 n
  List.replicate (width - digits.length) '0' ++ digits

def scale (places : Nat) : Nat := Nat.pow 10 places

/-- The decimals after the point of `n` parts of which `scale places` make one, if there are any. -/
def fraction (places n : Nat) : List Char :=
  if n = 0 then []
  else '.' :: ((padded places n).reverse.dropWhile (· == '0')).reverse

def inUnit (places n : Nat) (unit : String) : String :=
  String.ofList (Nat.toDigits 10 (n / scale places) ++ fraction places (n % scale places)) ++ unit

def text (d : Span) : String :=
  if scale 9 ≤ d.nanos then inUnit 9 d.nanos "s"
  else if scale 6 ≤ d.nanos then inUnit 6 d.nanos "ms"
  else if scale 3 ≤ d.nanos then inUnit 3 d.nanos "µs"
  else inUnit 0 d.nanos "ns"

example : (Span.ofMillis 1500).text = "1.5s" := by decide +kernel
example : (Span.mk 1001).text = "1.001µs" := by decide +kernel
example : (Span.mk 0).text = "0ns" := by decide +kernel

end Span
end HealthProbe
