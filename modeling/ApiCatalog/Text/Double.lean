import ApiCatalog.Text.Numeral

/-!
# Numbers in double precision

A number that is no 64-bit integer is kept in double precision: as the nearest multiple of a power
of two with a significand below 2^53, a tie going to the even one. `toText` shows such a number
with the fewest digits that read back; of several such decimals it takes the nearest, and of two
that are equally near the one with an even last digit.
-/
namespace ApiCatalog.Text

/-- A number that is not negative, `significand * 2 ^ exponent`. -/
structure Double where
  significand : Nat
  exponent : Int
  deriving DecidableEq, Repr, Inhabited

/-- A number as it is written in decimal: `digits * 10 ^ exponent`, perhaps with a minus sign. -/
structure Scientific where
  negative : Bool
  digits : Nat
  exponent : Int
  deriving DecidableEq, Repr, Inhabited

namespace Scientific

/-- An exponent: digits with an optional sign. -/
def exponent? : List Char → Option Int
  | '+' :: run => (natural? run).map Int.ofNat
  | '-' :: run => (natural? run).map fun n => -Int.ofNat n
  | run => (natural? run).map Int.ofNat

/-- Reads a number without sign: digits, then perhaps a point with digits and an exponent. -/
def magnitude? (negative : Bool) (input : List Char) : Option Scientific := do
  let (mantissa, power) := input.span fun c => c != 'e' && c != 'E'
  let (whole, point) := mantissa.span (· != '.')
  let power ← match power with
    | [] => some 0
    | _ :: power => exponent? power
  match point with
  | [] => pure ⟨negative, ← natural? whole, power⟩
  | _ :: fraction =>
    if whole.isEmpty ∨ fraction.isEmpty then none
    else pure ⟨negative, ← natural? (whole ++ fraction), power - fraction.length⟩

def ofText? : List Char → Option Scientific
  | '-' :: rest => magnitude? true rest
  | '+' :: rest => magnitude? false rest
  | rest => magnitude? false rest

end Scientific

namespace Double

/-- The significands are below this. -/
def significandLimit : Nat := 0x20000000000000

def leastExponent : Int := -1074

def greatestExponent : Int := 971

/-- The power that makes a fraction of a number to an integer exponent. -/
def upper (base : Nat) (exponent : Int) : Nat := Nat.pow base exponent.toNat

/-- The quotient rounded to the nearest integer, a tie going to the even one. -/
def roundedQuotient (a b : Nat) : Nat :=
  let q := a / b
  let twice := 2 * (a % b)
  if twice < b then q else if b < twice then q + 1 else if q % 2 = 0 then q else q + 1

/-- The nearest number to `a / b`, `none` beyond the greatest one. -/
def ofRatio? (a b : Nat) : Option Double :=
  let low := max ((a.log2 : Int) - b.log2 - 53) leastExponent
  let scaled (k : Int) : Nat × Nat := (a * upper 2 (-k), b * upper 2 k)
  let k := if (scaled low).1 / (scaled low).2 < significandLimit then low else low + 1
  let q := roundedQuotient (scaled k).1 (scaled k).2
  let d : Double := if q < significandLimit then ⟨q, k⟩ else ⟨q / 2, k + 1⟩
  if d.exponent ≤ greatestExponent then some d else none

/-- The number of decimal digits. -/
def width (n : Nat) : Nat := (Nat.toDigits 10 n).length

/-- The nearest number to a decimal one, `none` beyond the greatest one. -/
def ofScientific? (s : Scientific) : Option Double :=
  if s.digits = 0 then some ⟨0, 0⟩
  else
    let size := width s.digits + s.exponent
    if 310 < size then none
    else if size < -330 then some ⟨0, 0⟩
    else ofRatio? (s.digits * upper 10 s.exponent) (upper 10 (-s.exponent))

/-- How many digits `a / b` has before the point; for a number below 1 it is minus the number of
zeros after the point. -/
def magnitude (a b : Nat) : Int :=
  if b ≤ a then width (a / b)
  else match (List.range 400).find? fun zeros => b ≤ a * Nat.pow 10 (zeros + 1) with
    | some zeros => -(zeros : Int)
    | none => 0

/-- The significand and the ends of the interval that rounds to the number, in quarters of its last
place. -/
def quarters (d : Double) : Nat × Nat × Nat :=
  let q := 4 * d.significand
  let atGap := 2 * d.significand = significandLimit ∧ leastExponent < d.exponent
  (if atGap then q - 1 else q - 2, q, q + 2)

/-- The decimal with so many digits that reads back as the number, the nearest if there are two. -/
def withDigits? (d : Double) (top : Int) (count : Nat) : Option Scientific :=
  let power := top - count
  let unit := d.exponent - 2
  let (low, mid, high) := d.quarters
  let binary (n : Nat) : Nat := n * upper 2 unit * upper 10 (-power)
  let decimal (n : Nat) : Nat := n * upper 10 power * upper 2 (-unit)
  let closed := d.significand % 2 = 0
  let fits (n : Nat) : Bool :=
    (binary low < decimal n || (closed && binary low == decimal n)) &&
      (decimal n < binary high || (closed && decimal n == binary high))
  let below := binary mid / decimal 1
  let above := below + 1
  let downward := binary mid - decimal below
  let upward := decimal above - binary mid
  let nearer := downward < upward ∨ (downward = upward ∧ below % 2 = 0)
  if fits below ∧ (nearer ∨ ¬fits above) then some ⟨false, below, power⟩
  else if fits above then some ⟨false, above, power⟩
  else none

/-- The decimal with the fewest digits that reads back as the number. -/
def shortest (d : Double) : Scientific :=
  let unit := d.exponent - 2
  let top := magnitude (4 * d.significand * upper 2 unit) (upper 2 (-unit))
  ((List.range 17).findSome? fun n => d.withDigits? top (n + 1)).getD ⟨false, 0, 0⟩

def zeros (n : Nat) : String := String.ofList (List.replicate n '0')

/-- The text of digits with the point after the first `place` of them: in positional notation for
places from -4 to 16, else with an exponent. -/
def layout (digits : List Char) (place : Int) : String :=
  let text := String.ofList digits
  if (digits.length : Int) ≤ place ∧ place ≤ 16 then
    text ++ zeros (place.toNat - digits.length) ++ ".0"
  else if 0 < place ∧ place ≤ 16 then
    String.ofList (digits.take place.toNat) ++ "." ++ String.ofList (digits.drop place.toNat)
  else if -5 < place ∧ place ≤ 0 then "0." ++ zeros (-place).toNat ++ text
  else
    String.ofList (digits.take 1) ++ (if digits.length = 1 then "" else ".") ++
      String.ofList (digits.drop 1) ++ (if 0 < place then "e+" else "e") ++ toString (place - 1)

/-- The shortest text that reads back as the number. -/
def toText (d : Double) : String :=
  if d.significand = 0 then "0.0"
  else
    let s := d.shortest
    let run := Nat.toDigits 10 s.digits
    let kept := (run.reverse.dropWhile (· == '0')).reverse
    layout kept (s.exponent + run.length)

end Double
end ApiCatalog.Text
