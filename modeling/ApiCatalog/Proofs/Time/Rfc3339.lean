import ApiCatalog.Proofs.Text.Numeral
import ApiCatalog.Time.Rfc3339

/-!
# Reading instants that were written

The lenient reader of instants takes back what the writer wrote, part by part: each part is read up
to the mark after it, which is no digit. Main statement: an instant is read from its text
(`Instant.ofText?_toText`).
-/
namespace ApiCatalog

theorem Text.isBlank_eq_false_of_isDigit {c : Char} (digit : c.isDigit = true) :
    Text.isBlank c = false := by
  have bounds : 48 ≤ c.toNat ∧ c.toNat ≤ 57 := by
    simpa [Char.isDigit, UInt32.le_iff_toNat_le] using digit
  simp only [Text.isBlank, Bool.or_eq_false_iff, Bool.and_eq_false_iff, decide_eq_false_iff_not,
    beq_eq_false_iff_ne]
  omega

theorem Text.skipBlanks_cons {c : Char} (rest : List Char) (ink : Text.isBlank c = false) :
    Text.skipBlanks (c :: rest) = c :: rest :=
  List.dropWhile_cons_of_neg (by simp [ink])

theorem Text.skipBlanks_digits {run : List Char} (digits : ∀ c ∈ run, c.isDigit = true)
    (some_digit : run ≠ []) (rest : List Char) : Text.skipBlanks (run ++ rest) = run ++ rest := by
  cases run with
  | nil => exact absurd rfl some_digit
  | cons c others =>
    exact skipBlanks_cons _ (isBlank_eq_false_of_isDigit (digits c List.mem_cons_self))

theorem daysInMonth_le (year : Int) (month : Nat) : daysInMonth year month ≤ 31 := by
  unfold daysInMonth
  split
  · split <;> decide
  · split <;> decide

namespace Civil

/-- No offset, no change. -/
theorem back_zero {c : Civil} (valid : c.Valid) : c.back 0 = c := by
  have hour := valid.hour_lt
  have minute := valid.minute_lt
  have start : ¬(c.hour * 60 + c.minute - 0 : Int) < 0 := by omega
  have stop : ¬(1440 : Int) ≤ c.hour * 60 + c.minute - 0 := by omega
  have within : ((c.hour * 60 + c.minute - 0 : Int) % 1440).toNat = c.hour * 60 + c.minute := by
    omega
  simp only [back, if_neg start, if_neg stop, within]
  congr 1 <;> omega

end Civil

namespace Instant

theorem toList_padded (width n : Nat) :
    (padded width n).toList = Text.padding (width - (Nat.toDigits 10 n).length) n :=
  String.toList_ofList

theorem length_padded {width : Nat} (n : Nat) (positive : 0 < width) (fits : n < Nat.pow 10 width) :
    (padded width n).toList.length = width := by
  have short := (Nat.length_toDigits_le_iff (by decide) positive).2 fits
  rw [toList_padded, Text.padding, List.length_append, List.length_replicate]
  omega

/-- A text that does not go on with a digit. -/
def EndsNumber (rest : List Char) : Prop := rest.takeWhile Char.isDigit = []

theorem endsNumber_cons {c : Char} {rest : List Char} (mark : c.isDigit = false) :
    EndsNumber (c :: rest) :=
  List.takeWhile_cons_of_neg (by simp [mark])

theorem takeWhile_digits {run rest : List Char} (digits : ∀ c ∈ run, c.isDigit = true)
    (ends : EndsNumber rest) : (run ++ rest).takeWhile Char.isDigit = run := by
  rw [List.takeWhile_append_of_pos digits, ends, List.append_nil]

theorem number?_padded (width : Nat) {limit n : Nat} {rest : List Char}
    (fits : (padded width n).toList.length ≤ limit) (ends : EndsNumber rest) :
    number? limit ((padded width n).toList ++ rest) = some (n, rest) := by
  rw [toList_padded] at fits ⊢
  rw [number?, takeWhile_digits Text.isDigit_of_mem_padding ends, List.take_of_length_le fits]
  simp only [Text.natural?_padding, Option.map_some, List.drop_left]

theorem part?_padded {n : Nat} {rest : List Char} (fits : n < 100) (ends : EndsNumber rest) :
    part? ((padded 2 n).toList ++ rest) = some (n, rest) := by
  have long : (padded 2 n).toList.length = 2 := length_padded n (by decide) fits
  rw [part?, toList_padded,
    Text.skipBlanks_digits Text.isDigit_of_mem_padding Text.padding_ne_nil, ← toList_padded]
  exact number?_padded 2 (Nat.le_of_eq long) ends

theorem mark?_cons (mark : Char) (ink : Text.isBlank mark = false) (rest : List Char) :
    mark? mark (mark :: rest) = some rest := by
  rw [mark?, Text.skipBlanks_cons rest ink]
  exact if_pos rfl

section Year

variable {rest : List Char}

/-- A year that starts with a digit has no sign. -/
theorem year?_of_digits {run : List Char} (digits : ∀ c ∈ run, c.isDigit = true)
    (some_digit : run ≠ []) :
    year? (run ++ rest) = (number? 4 (run ++ rest)).map fun (n, rest) => ((n : Int), rest) := by
  unfold year?
  rw [Text.skipBlanks_digits digits some_digit]
  cases run with
  | nil => exact absurd rfl some_digit
  | cons c others =>
    have digit := digits c List.mem_cons_self
    split
    next same =>
      cases same
      cases digit
    next same =>
      cases same
      cases digit
    next => rfl

theorem year?_minus (input : List Char) : year? ('-' :: input) =
    (number? input.length input).map fun (n, rest) => (-(n : Int), rest) := by
  rw [year?, Text.skipBlanks_cons input rfl]
  rfl

theorem year?_plus (input : List Char) : year? ('+' :: input) =
    (number? input.length input).map fun (n, rest) => ((n : Int), rest) := by
  rw [year?, Text.skipBlanks_cons input rfl]
  rfl

/-- Within four digits a year has no sign, and otherwise it has any number of digits. -/
theorem year?_yearText (year : Int) (ends : EndsNumber rest) :
    year? ((yearText year).toList ++ rest) = some (year, rest) := by
  unfold yearText
  split
  next plain =>
    have small : year.toNat < 10000 := by omega
    have long : (padded 4 year.toNat).toList.length = 4 := length_padded _ (by decide) small
    rw [toList_padded, year?_of_digits Text.isDigit_of_mem_padding Text.padding_ne_nil,
      ← toList_padded, number?_padded 4 (Nat.le_of_eq long) ends]
    simp only [Option.map_some, Int.toNat_of_nonneg plain.1]
  next =>
    have read : ∀ n, number? ((padded 4 n).toList ++ rest).length ((padded 4 n).toList ++ rest) =
        some (n, rest) :=
      fun n => number?_padded 4 (List.length_append ▸ Nat.le_add_right _ rest.length) ends
    rw [String.toList_append]
    by_cases negative : year < 0
    · have absolute : -(year.natAbs : Int) = year := by omega
      rw [if_pos negative]
      simp only [String.reduceToList, List.cons_append, List.nil_append, year?_minus, read,
        Option.map_some, absolute]
    · have absolute : (year.natAbs : Int) = year := by omega
      rw [if_neg negative]
      simp only [String.reduceToList, List.cons_append, List.nil_append, year?_plus, read,
        Option.map_some, absolute]

end Year

section Fraction

variable {rest : List Char} {nano : Nat}

/-- The digits that are left out are zeros. -/
theorem fraction?_padded {width : Nat} (positive : 0 < width) (narrow : width ≤ 9)
    (fits : nano < 1000000000) (zeros : nano % Nat.pow 10 (9 - width) = 0)
    (ends : EndsNumber rest) :
    fraction? ('.' :: ((padded width (nano / Nat.pow 10 (9 - width))).toList ++ rest)) =
      some (nano, rest) := by
  have whole : Nat.pow 10 (9 - width) * Nat.pow 10 width = 1000000000 := by
    simp only [Nat.pow_eq, ← Nat.pow_add, Nat.sub_add_cancel narrow, Nat.reducePow]
  have long : (padded width (nano / Nat.pow 10 (9 - width))).toList.length = width :=
    length_padded _ positive (Nat.div_lt_of_lt_mul (whole ▸ fits))
  rw [toList_padded] at long ⊢
  have kept := List.take_of_length_le (long ▸ narrow)
  simp only [fraction?, takeWhile_digits Text.isDigit_of_mem_padding ends, kept,
    Text.natural?_padding, Option.map_some, List.drop_left]
  rw [long, Nat.div_mul_cancel (Nat.dvd_of_mod_eq_zero zeros)]

theorem fraction?_fractionText (fits : nano < 1000000000) :
    fraction? ((fractionText nano).toList ++ ['Z']) = some (nano, ['Z']) := by
  have ends : EndsNumber ['Z'] := endsNumber_cons rfl
  unfold fractionText
  split
  next zero => simp [zero, fraction?]
  next =>
    split
    next zeros => simpa using fraction?_padded (by decide : 0 < 3) (by decide) fits zeros ends
    next =>
      split
      next zeros => simpa using fraction?_padded (by decide : 0 < 6) (by decide) fits zeros ends
      next =>
        have zeros := Nat.mod_one nano
        simpa using fraction?_padded (by decide : 0 < 9) (by decide) fits zeros ends

theorem endsNumber_fractionText : EndsNumber ((fractionText nano).toList ++ ['Z']) := by
  have point : ∀ text, EndsNumber (("." ++ text : String).toList ++ ['Z']) := by
    intro text
    rw [String.toList_append]
    exact endsNumber_cons rfl
  unfold fractionText
  split
  · exact endsNumber_cons rfl
  · split
    · exact point _
    · split
      · exact point _
      · exact point _

end Fraction

private theorem bind_of_eq_some {α β : Type} {first : Option α} {next : α → Option β} {a : α}
    (found : first = some a) : (first >>= next) = next a := by
  rw [found]
  rfl

/-- An instant is read from its text. -/
theorem ofText?_toText (t : Instant) : ofText? t.toText = some t := by
  have valid := t.valid
  have month : t.month < 100 := by
    have range := valid.month_range
    omega
  have day : t.day < 100 := by
    have range := valid.day_range
    have short := daysInMonth_le t.year t.month
    omega
  have hour : t.hour < 100 := Nat.lt_trans valid.hour_lt (by decide)
  have minute : t.minute < 100 := Nat.lt_trans valid.minute_lt (by decide)
  have second : t.second < 100 := Nat.lt_of_le_of_lt valid.second_le (by decide)
  have text : t.toText.toList = (yearText t.year).toList ++ '-' :: ((padded 2 t.month).toList ++
      '-' :: ((padded 2 t.day).toList ++ 'T' :: ((padded 2 t.hour).toList ++
      ':' :: ((padded 2 t.minute).toList ++ ':' :: ((padded 2 t.second).toList ++
      ((fractionText t.nano).toList ++ ['Z'])))))) := by
    simp only [toText, String.toList_append, String.reduceToList, List.append_assoc,
      List.cons_append, List.nil_append]
  have dash : ∀ rest, EndsNumber ('-' :: rest) := fun _ => endsNumber_cons rfl
  have colon : ∀ rest, EndsNumber (':' :: rest) := fun _ => endsNumber_cons rfl
  have tee : ∀ rest, EndsNumber ('T' :: rest) := fun _ => endsNumber_cons rfl
  have between : ∀ rest, between? ('T' :: rest) = some rest := by
    simp [between?]
  have zone : zone? (Text.skipBlanks ['Z']) = some (0, []) := rfl
  -- The parts are read one after the other.
  unfold ofText?
  rw [text]
  refine (bind_of_eq_some (year?_yearText _ (dash _))).trans ?_
  refine (bind_of_eq_some (mark?_cons '-' rfl _)).trans ?_
  refine (bind_of_eq_some (part?_padded month (dash _))).trans ?_
  refine (bind_of_eq_some (mark?_cons '-' rfl _)).trans ?_
  refine (bind_of_eq_some (part?_padded day (tee _))).trans ?_
  refine (bind_of_eq_some (between _)).trans ?_
  refine (bind_of_eq_some (part?_padded hour (colon _))).trans ?_
  refine (bind_of_eq_some (mark?_cons ':' rfl _)).trans ?_
  refine (bind_of_eq_some (part?_padded minute (colon _))).trans ?_
  refine (bind_of_eq_some (mark?_cons ':' rfl _)).trans ?_
  refine (bind_of_eq_some (part?_padded second endsNumber_fractionText)).trans ?_
  refine (bind_of_eq_some (fraction?_fractionText valid.nano_lt)).trans ?_
  refine (bind_of_eq_some zone).trans ?_
  dsimp only
  rw [if_pos ⟨rfl, valid, by decide⟩, Civil.back_zero valid]
  exact dif_pos valid

end Instant
end ApiCatalog
