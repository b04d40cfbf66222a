import ApiCatalog.Text.Double

/-!
# Numbers read step by step

A decimal number can be read in double precision by a few operations, each of which rounds: of its
digits as many as fit a 64-bit word are taken for an integer, which is then multiplied or divided by
powers of ten up to 10^308. The result may miss the nearest number in its last place.
-/
namespace ApiCatalog.Text
namespace Double

/-- The number as a quotient of integers. -/
def ratio (d : Double) : Nat × Nat := (d.significand * upper 2 d.exponent, upper 2 (-d.exponent))

def times? (a b : Double) : Option Double :=
  ofRatio? (a.ratio.1 * b.ratio.1) (a.ratio.2 * b.ratio.2)

def over? (a b : Double) : Option Double :=
  ofRatio? (a.ratio.1 * b.ratio.2) (a.ratio.2 * b.ratio.1)

def powerOfTen? (n : Nat) : Option Double := ofRatio? (Nat.pow 10 n) 1

/-- Multiplies by a power of ten; a number below 2^64 is zero after two divisions by 10^308. -/
def scale? (d : Double) (exponent : Int) : Option Double := do
  if d.significand = 0 ∨ exponent < -616 then some ⟨0, 0⟩
  else if 308 < exponent then none
  else if 0 ≤ exponent then d.times? (← powerOfTen? exponent.toNat)
  else if -308 ≤ exponent then d.over? (← powerOfTen? (-exponent).toNat)
  else (← d.over? (← powerOfTen? 308)).over? (← powerOfTen? (-308 - exponent).toNat)

end Double

namespace Stepwise

/-- Appends digits to a word as long as it is one, and counts the digits that are left. -/
def fill (word : Nat) : List Char → Nat × Nat
  | [] => (word, 0)
  | c :: rest =>
    let next := 10 * word + (c.toNat - '0'.toNat)
    if next < UInt64.size then fill next rest else (word, rest.length + 1)

/-- Reads a number without sign. -/
def magnitude? (input : List Char) : Option Double := do
  let (mantissa, power) := input.span fun c => c != 'e' && c != 'E'
  let (whole, point) := mantissa.span (· != '.')
  let power ← match power with
    | [] => some 0
    | _ :: power => Scientific.exponent? power
  let (word, more) := fill 0 whole
  let (word, unread) := fill word point.tail
  let start ← Double.ofRatio? word 1
  start.scale? (power + more - (point.tail.length - unread : Nat))

/-- The text in double precision of a number that is read so, `none` beyond the greatest one. -/
def shown? : List Char → Option String
  | '-' :: rest => (magnitude? rest).map fun d => "-" ++ d.toText
  | rest => (magnitude? rest).map Double.toText

end Stepwise
end ApiCatalog.Text
