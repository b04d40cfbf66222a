/-!
# Unsigned numerals

Digits and the numbers that they write. The decimal numerals of 64-bit words, as they appear in the
environment and on the command line, are an optional plus sign and one or more ASCII digits, with a
value below 2^64.
-/
namespace ApiCatalog.Text

/-- The value of an ASCII digit. -/
def digit? (c : Char) : Option Nat :=
  if '0' ≤ c ∧ c ≤ '9' then some (c.toNat - '0'.toNat) else none

/-- The value of a hexadecimal digit. -/
def hexDigit? (c : Char) : Option Nat :=
  if '0' ≤ c ∧ c ≤ '9' then some (c.toNat - '0'.toNat)
  else if 'a' ≤ c ∧ c ≤ 'f' then some (c.toNat - 'a'.toNat + 10)
  else if 'A' ≤ c ∧ c ≤ 'F' then some (c.toNat - 'A'.toNat + 10)
  else none

/-- The value of a run of decimal digits, continuing from `value`. -/
def digitsFrom? (value : Nat) : List Char → Option Nat
  | [] => some value
  | c :: rest => (digit? c).bind fun d => digitsFrom? (10 * value + d) rest

/-- The value of one or more decimal digits. -/
def natural? : List Char → Option Nat
  | [] => none
  | digits => digitsFrom? 0 digits

/-- Whether an integer has so many bits, with or without sign. -/
def fits (bits : Nat) (n : Int) : Bool :=
  -(Nat.pow 2 (bits - 1) : Int) ≤ n && n < (Nat.pow 2 bits : Int)

/-- The character whose number is written by so many hexadecimal digits. -/
def codePoint? (width : Nat) (input : List Char) : Option (Char × List Char) := do
  let run ← (input.take width).mapM hexDigit?
  let n := run.foldl (fun n d => 16 * n + d) 0
  if run.length = width ∧ n.isValidChar then some (Char.ofNat n, input.drop width) else none

/-- The 64-bit word that a number is, if it is one. -/
def wordOfNat? (n : Nat) : Option UInt64 :=
  if n < UInt64.size then some (UInt64.ofNat n) else none

/-- Reads a 64-bit word. -/
def word? (text : String) : Option UInt64 :=
  match text.toList with
  | '+' :: digits => (natural? digits).bind wordOfNat?
  | digits => (natural? digits).bind wordOfNat?

end ApiCatalog.Text
