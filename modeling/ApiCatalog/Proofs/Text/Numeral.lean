import ApiCatalog.Text.Numeral

/-!
# Reading what was written in digits

The readers of numerals agree with the digits of a number. Main statement: the decimal digits of a
number, with any zeros before them, are read as that number (`natural?_padding`).
-/
namespace ApiCatalog.Text

theorem digit?_of_isDigit {c : Char} (digit : c.isDigit = true) :
    digit? c = some (c.toNat - '0'.toNat) := by
  have bounds : 48 ≤ c.val ∧ c.val ≤ 57 := by simpa [Char.isDigit] using digit
  exact if_pos (show '0' ≤ c ∧ c ≤ '9' from bounds)

theorem digitsFrom?_eq {run : List Char} (digits : ∀ c ∈ run, c.isDigit = true) (value : Nat) :
    digitsFrom? value run = some (Nat.ofDigitChars 10 run value) := by
  induction run generalizing value with
  | nil => rfl
  | cons c rest ih =>
    obtain ⟨digit, others⟩ := List.forall_mem_cons.1 digits
    rw [digitsFrom?, digit?_of_isDigit digit, Option.bind_some, ih others, Nat.ofDigitChars_cons]

theorem natural?_eq {run : List Char} (digits : ∀ c ∈ run, c.isDigit = true)
    (some_digit : run ≠ []) : natural? run = some (Nat.ofDigitChars 10 run 0) := by
  cases run with
  | nil => exact absurd rfl some_digit
  | cons c rest => exact digitsFrom?_eq digits 0

theorem isDigit_of_mem_toDigits {n : Nat} : ∀ c ∈ Nat.toDigits 10 n, c.isDigit = true :=
  fun _ => Nat.isDigit_of_mem_toDigits (by decide) (by decide)

theorem toDigits_eq_cons (n : Nat) :
    ∃ c more, Nat.toDigits 10 n = c :: more ∧ c.isDigit = true := by
  have some_digit : Nat.toDigits 10 n ≠ [] := Nat.toDigits_ne_nil
  obtain ⟨c, more, run⟩ := List.exists_cons_of_ne_nil some_digit
  exact ⟨c, more, run, isDigit_of_mem_toDigits c (run ▸ List.mem_cons_self)⟩

/-- The digits of a positive number do not start with a zero. -/
theorem head?_toDigits {n : Nat} (positive : 0 < n) : (Nat.toDigits 10 n).head? ≠ some '0' := by
  induction n using Nat.strongRecOn with
  | ind n ih =>
    rw [Nat.toDigits_eq_if (by decide)]
    split
    next small =>
      have digits : ∀ d < 10, 0 < d → [Nat.digitChar d].head? ≠ some '0' := by decide
      exact digits n small positive
    next large =>
      rw [List.head?_append, Option.or_of_isSome (List.isSome_head?.2 Nat.toDigits_ne_nil)]
      exact ih (n / 10) (by omega) (by omega)

/-- The digits of a number after some zeros. -/
def padding (zeros n : Nat) : List Char := List.replicate zeros '0' ++ Nat.toDigits 10 n

theorem isDigit_of_mem_padding {zeros n : Nat} : ∀ c ∈ padding zeros n, c.isDigit = true := by
  intro c member
  rcases List.mem_append.1 member with zero | digit
  · rw [List.eq_of_mem_replicate zero]
    rfl
  · exact isDigit_of_mem_toDigits c digit

theorem padding_ne_nil {zeros n : Nat} : padding zeros n ≠ [] :=
  List.append_ne_nil_of_right_ne_nil _ Nat.toDigits_ne_nil

/-- Zeros before a number do not change it. -/
theorem natural?_padding (zeros n : Nat) : natural? (padding zeros n) = some n := by
  rw [natural?_eq isDigit_of_mem_padding padding_ne_nil, padding, Nat.ofDigitChars_append,
    Nat.ofDigitChars_replicate_zero, Nat.mul_zero, Nat.ofDigitChars_ten_toDigits]

theorem natural?_toDigits (n : Nat) : natural? (Nat.toDigits 10 n) = some n := natural?_padding 0 n

end ApiCatalog.Text
