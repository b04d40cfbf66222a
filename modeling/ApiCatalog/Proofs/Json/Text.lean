import ApiCatalog.Json.Reader
import ApiCatalog.Json.Writer
import ApiCatalog.Proofs.Json.Wire
import ApiCatalog.Proofs.Text.Numeral
import Mathlib.Data.List.TakeDrop

/-!
# Reading JSON text that was written

A part of the reader that is given what the writer wrote, and any text after it, takes up just what
was written. Strings are read character by character (`string?_stringText`), words as one run of
digits (`number?_toDigits`), lists and objects item by item. Main statement: a plain value is read
from its text (`Plain.ofText?_toText`).
-/
namespace ApiCatalog.Json
namespace Reader

section Strings

theorem hexDigit?_digitChar : ∀ d < 16, Text.hexDigit? (Nat.digitChar d) = some d := by decide

/-- The two digits of a control character, after those that are always zero. -/
theorem control_digits : ∀ n < 0x20,
    (if n < 0x10 then "0" else "").toList ++ Nat.toDigits 16 n =
      [Nat.digitChar (n / 16), Nat.digitChar (n % 16)] := by decide

theorem unicode?_control {n : Nat} (control : n < 0x20) (rest : List Char) :
    unicode? ('0' :: '0' :: Nat.digitChar (n / 16) :: Nat.digitChar (n % 16) :: rest) =
      some (Char.ofNat n, rest) := by
  have zero : Text.hexDigit? '0' = some 0 := rfl
  have unit : unit? ('0' :: '0' :: Nat.digitChar (n / 16) :: Nat.digitChar (n % 16) :: rest) =
      some (n, rest) := by
    simp only [unit?, zero, hexDigit?_digitChar (n / 16) (by omega),
      hexDigit?_digitChar (n % 16) (by omega), Option.bind_eq_bind, Option.bind_some,
      Option.pure_def]
    congr 2
    omega
  simp only [unicode?, unit, Option.bind_eq_bind, Option.bind_some, Option.pure_def]
  rw [if_neg (by omega), if_neg (by omega)]

theorem toList_controlText {n : Nat} (control : n < 0x20) :
    ("\\u00" ++ (if n < 0x10 then "0" else "") ++ String.ofList (Nat.toDigits 16 n)).toList =
      '\\' :: 'u' :: '0' :: '0' :: [Nat.digitChar (n / 16), Nat.digitChar (n % 16)] := by
  rw [← control_digits n control, String.toList_append, String.toList_append]
  simp only [String.toList_ofList]
  rfl

/-- An escape stands for the character that it was made of. -/
theorem string?_escape (c : Char) (fuel : Nat) (read rest : List Char) :
    string? (fuel + 1) read ((escape c).toList ++ rest) = string? fuel (c :: read) rest := by
  by_cases special : c = '"' ∨ c = '\\' ∨ c = '\n' ∨ c = '\r' ∨ c = '\t' ∨ c = '\x08' ∨ c = '\x0c'
  · rcases special with rfl | rfl | rfl | rfl | rfl | rfl | rfl <;> rfl
  · simp only [not_or] at special
    simp only [escape, special, if_false]
    split
    next control =>
      have stands_for : escaped? ('u' :: '0' :: '0' :: Nat.digitChar (c.toNat / 16) ::
          Nat.digitChar (c.toNat % 16) :: rest) = some (c, rest) := by
        rw [escaped?, unicode?_control control, Char.ofNat_toNat]
      rw [toList_controlText control]
      change (escaped? ('u' :: '0' :: '0' :: _ :: _ :: rest)).bind _ = _
      rw [stands_for]
      rfl
    next visible =>
      have ink : c.toString.toList ++ rest = c :: rest := by simp
      rw [ink, string?, if_neg special.1, if_neg special.2.1, if_neg visible]

theorem escape_ne_nil (c : Char) : (escape c).toList ≠ [] := by
  unfold escape
  repeat' split
  all_goals simp

/-- How a string shows its characters. -/
def shown (cs : List Char) : List Char := cs.flatMap fun c => (escape c).toList

theorem toList_stringText (s : String) (rest : List Char) :
    (stringText s).toList ++ rest = '"' :: (shown s.toList ++ '"' :: rest) := by
  simp [stringText, shown, String.toList_join, List.flatMap_map]

theorem length_le_shown (cs : List Char) : cs.length ≤ (shown cs).length := by
  induction cs with
  | nil => exact Nat.le_refl 0
  | cons c cs ih =>
    have some_ink := List.length_pos_iff.2 (escape_ne_nil c)
    change cs.length + 1 ≤ ((escape c).toList ++ shown cs).length
    rw [List.length_append]
    omega

theorem string?_shown (cs : List Char) {fuel : Nat} (enough : cs.length < fuel)
    (read rest : List Char) :
    string? fuel read (shown cs ++ '"' :: rest) =
      some (String.ofList (read.reverse ++ cs), rest) := by
  induction cs generalizing fuel read with
  | nil =>
    obtain ⟨fuel, rfl⟩ := Nat.exists_eq_add_one_of_ne_zero (Nat.ne_zero_of_lt enough)
    simp [string?, shown]
  | cons c cs ih =>
    obtain ⟨fuel, rfl⟩ := Nat.exists_eq_add_one_of_ne_zero (Nat.ne_zero_of_lt enough)
    have first : shown (c :: cs) = (escape c).toList ++ shown cs := rfl
    rw [first, List.append_assoc, string?_escape, ih (Nat.lt_of_succ_lt_succ enough)]
    simp

/-- A string is read from its text. -/
theorem string?_stringText (s : String) (rest : List Char) :
    string? ((shown s.toList ++ '"' :: rest).length + 1) [] (shown s.toList ++ '"' :: rest) =
      some (s, rest) := by
  have enough : s.toList.length < (shown s.toList ++ '"' :: rest).length + 1 := by
    have long := length_le_shown s.toList
    rw [List.length_append]
    omega
  rw [string?_shown s.toList enough]
  simp

end Strings

section Numbers

/-- What may follow a value: nothing, or the mark after an item or a member. -/
def Delimited (rest : List Char) : Prop :=
  rest = [] ∨ ∃ c more, rest = c :: more ∧ (c = ',' ∨ c = ']' ∨ c = '\x7d')

variable {rest : List Char}

theorem Delimited.digits_append (delimited : Delimited rest) {run : List Char}
    (digits : ∀ c ∈ run, c.isDigit = true) : Reader.digits (run ++ rest) = (run, rest) := by
  rw [Reader.digits, List.span_eq_takeWhile_dropWhile, List.takeWhile_append_of_pos digits,
    List.dropWhile_append_of_pos digits]
  rcases delimited with rfl | ⟨c, more, rfl, rfl | rfl | rfl⟩ <;> simp

theorem Delimited.fraction?_eq (delimited : Delimited rest) : fraction? rest = some ([], rest) := by
  rcases delimited with rfl | ⟨c, more, rfl, rfl | rfl | rfl⟩ <;> rfl

theorem Delimited.exponent?_eq (delimited : Delimited rest) : exponent? rest = some ([], rest) := by
  rcases delimited with rfl | ⟨c, more, rfl, rfl | rfl | rfl⟩ <;> rfl

theorem magnitude_toDigits (n : Nat) : magnitude (Nat.toDigits 10 n) = n :=
  Nat.ofDigitChars_ten_toDigits

theorem number?_toDigits (delimited : Delimited rest) (n : Nat) :
    number? (Nat.toDigits 10 n ++ rest) = some (.integer n, rest) := by
  have plain : ¬((Nat.toDigits 10 n).isEmpty = true ∨
      (Nat.toDigits 10 n).length > 1 ∧ (Nat.toDigits 10 n).head? = some '0') := by
    rintro (empty | ⟨long, zero⟩)
    · exact Nat.toDigits_ne_nil (List.isEmpty_iff.1 empty)
    · cases n with
      | zero => exact absurd long (by decide)
      | succ n => exact Text.head?_toDigits (Nat.succ_pos n) zero
  -- `simp` needs it to pass over the sign.
  have unsigned : ∀ more, Nat.toDigits 10 n ++ rest ≠ '-' :: more := by
    intro more same
    obtain ⟨c, digits, run, digit⟩ := Text.toDigits_eq_cons n
    rw [run] at same
    cases same
    cases digit
  unfold number?
  simp only [delimited.digits_append Text.isDigit_of_mem_toDigits, if_neg plain,
    delimited.fraction?_eq, delimited.exponent?_eq, magnitude_toDigits, Option.bind_eq_bind,
    Option.bind_some, Option.pure_def]
  simp

end Numbers

section Values

theorem skipSpace_cons (c : Char) (ink : (c == ' ' || c == '\t' || c == '\n' || c == '\r') = false)
    (rest : List Char) : skipSpace (c :: rest) = c :: rest :=
  List.dropWhile_cons_of_neg (by simp [ink])

/-- The first character of a plain value. -/
def Opens (c : Char) : Prop := c = '"' ∨ c = '[' ∨ c = '\x7b' ∨ c = 'n' ∨ c.isDigit = true

theorem Opens.skipSpace_eq {c : Char} (opens : Opens c) (rest : List Char) :
    skipSpace (c :: rest) = c :: rest := by
  refine skipSpace_cons c (Bool.eq_false_iff.2 fun space => ?_) rest
  simp only [Bool.or_eq_true, beq_iff_eq] at space
  rcases space with ((rfl | rfl) | rfl) | rfl <;> exact absurd opens (by unfold Opens; decide)

theorem value?_of_isDigit {c : Char} (digit : c.isDigit = true) (fuel : Nat) (rest : List Char) :
    value? (fuel + 1) (c :: rest) = number? (c :: rest) := by
  have opens : Opens c := .inr (.inr (.inr (.inr digit)))
  rw [value?, opens.skipSpace_eq]
  split
  all_goals first | rfl | (next same => cases same; cases digit)

theorem toList_integerText (n : UInt64) :
    (integerText n.toNat).toList = Nat.toDigits 10 n.toNat := by
  have word : n.toNat < Nat.pow 2 64 := n.toNat_lt
  have fits : Text.fits 64 n.toNat = true := by
    simp only [Text.fits, Bool.and_eq_true, decide_eq_true_eq]
    omega
  have decimal : toString (n.toNat : Int) = n.toNat.repr := rfl
  rw [integerText, if_pos fits, decimal, Nat.toList_repr]

/-- The value is read from its text, whatever follows that. -/
def ReadBack (value : Json) : Prop :=
  ∀ (fuel : Nat) (rest : List Char), Delimited rest → value.toText.toList.length < fuel →
    value? fuel (value.toText.toList ++ rest) = some (value, rest)

theorem readBack_null : ReadBack .null := by
  intro fuel rest _ enough
  obtain ⟨fuel, rfl⟩ := Nat.exists_eq_add_one_of_ne_zero (Nat.ne_zero_of_lt enough)
  rfl

theorem readBack_text (s : String) : ReadBack (.text s) := by
  intro fuel rest _ enough
  obtain ⟨fuel, rfl⟩ := Nat.exists_eq_add_one_of_ne_zero (Nat.ne_zero_of_lt enough)
  rw [toText, toList_stringText]
  change (string? _ [] _).bind _ = _
  rw [string?_stringText]
  rfl

theorem readBack_word (n : UInt64) : ReadBack (.integer n.toNat) := by
  intro fuel rest delimited enough
  obtain ⟨fuel, rfl⟩ := Nat.exists_eq_add_one_of_ne_zero (Nat.ne_zero_of_lt enough)
  have read := number?_toDigits delimited n.toNat
  rw [toText, toList_integerText]
  obtain ⟨c, digits, run, digit⟩ := Text.toDigits_eq_cons n.toNat
  rw [run, List.cons_append] at read ⊢
  rwa [value?_of_isDigit digit]

theorem opens_of_plain {depth : Nat} {value : Json} (plain : Plain depth value) :
    ∃ c more, value.toText.toList = c :: more ∧ Opens c := by
  cases plain with
  | null => exact ⟨'n', _, rfl, .inr (.inr (.inr (.inl rfl)))⟩
  | text s =>
    have text := toList_stringText s []
    rw [List.append_nil] at text
    exact ⟨'"', _, text, .inl rfl⟩
  | word n =>
    obtain ⟨c, digits, run, digit⟩ := Text.toDigits_eq_cons n.toNat
    rw [toText, toList_integerText]
    exact ⟨c, digits, run, .inr (.inr (.inr (.inr digit)))⟩
  | @list _ items _ =>
    cases items with
    | nil => exact ⟨'[', _, rfl, .inr (.inl rfl)⟩
    | cons item items => exact ⟨'[', _, by simp [toText]; rfl, .inr (.inl rfl)⟩
  | @object _ members _ =>
    cases members with
    | nil => exact ⟨'\x7b', _, rfl, .inr (.inr (.inl rfl))⟩
    | cons m members => exact ⟨'\x7b', _, by simp [toText]; rfl, .inr (.inr (.inl rfl))⟩

end Values

section Nested

theorem toList_itemsText (item : Json) (items : List Json) : (itemsText (item :: items)).toList =
    ',' :: (item.toText.toList ++ (itemsText items).toList) := by
  simp [itemsText]

/-- The text of a member. -/
def memberText (m : String × Json) : List Char :=
  (stringText m.1).toList ++ ':' :: m.2.toText.toList

theorem memberText_append (m : String × Json) (rest : List Char) : memberText m ++ rest =
    '"' :: (shown m.1.toList ++ '"' :: ':' :: (m.2.toText.toList ++ rest)) := by
  rw [memberText, List.append_assoc, toList_stringText]
  rfl

theorem toList_membersText (m : String × Json) (members : List (String × Json)) :
    (membersText (m :: members)).toList =
      ',' :: (memberText m ++ (membersText members).toList) := by
  obtain ⟨name, value⟩ := m
  simp [membersText, memberText]

/-- The items of a list are read if each of them is. Each item costs one unit of fuel and has, with
the mark before it, at least one character. -/
theorem items?_of_readBack {first : Json} {items : List Json}
    (each : ∀ item ∈ first :: items, ReadBack item) (fuel : Nat) (read : List Json)
    (rest : List Char)
    (enough : first.toText.toList.length + (itemsText items).toList.length + 1 < fuel) :
    items? fuel read (first.toText.toList ++ ((itemsText items).toList ++ ']' :: rest)) =
      some (.list (read.reverse ++ first :: items), rest) := by
  induction items generalizing first fuel read with
  | nil =>
    obtain ⟨fuel, rfl⟩ := Nat.exists_eq_add_one_of_ne_zero (Nat.ne_zero_of_lt enough)
    have ends : (itemsText []).toList ++ ']' :: rest = ']' :: rest := rfl
    have value := each first List.mem_cons_self fuel (']' :: rest)
      (.inr ⟨']', rest, rfl, by decide⟩) (by omega)
    rw [ends, items?, value]
    simp [skipSpace_cons ']' rfl]
  | cons next items ih =>
    obtain ⟨fuel, rfl⟩ := Nat.exists_eq_add_one_of_ne_zero (Nat.ne_zero_of_lt enough)
    obtain ⟨here, others⟩ := List.forall_mem_cons.1 each
    rw [toList_itemsText] at enough ⊢
    simp only [List.length_cons, List.length_append] at enough
    have value := here fuel
      (',' :: (next.toText.toList ++ ((itemsText items).toList ++ ']' :: rest)))
      (.inr ⟨',', _, rfl, by decide⟩) (by omega)
    have after := ih others fuel (first :: read) (by omega)
    rw [List.cons_append, List.append_assoc, items?, value]
    simpa [skipSpace_cons ',' rfl] using after

section Member

variable {m : String × Json} (here : ReadBack m.2) {fuel : Nat}
variable (enough : (memberText m).length < fuel) (read : List (String × Json)) (rest : List Char)

include here enough

theorem value?_of_member (delimited : Delimited rest) :
    value? fuel (m.2.toText.toList ++ rest) = some (m.2, rest) := by
  simp only [memberText, List.length_append, List.length_cons] at enough
  exact here fuel rest delimited (by omega)

/-- A member before another one. -/
theorem members?_comma : members? (fuel + 1) read (memberText m ++ ',' :: rest) =
    members? fuel (m :: read) rest := by
  have value := value?_of_member here enough (',' :: rest) (.inr ⟨',', rest, rfl, by decide⟩)
  rw [memberText_append, members?, skipSpace_cons '"' rfl]
  simp only [string?_stringText, skipSpace_cons ':' rfl, value, skipSpace_cons ',' rfl,
    Option.bind_eq_bind, Option.bind_some]

/-- The last member. -/
theorem members?_brace : members? (fuel + 1) read (memberText m ++ '\x7d' :: rest) =
    some (.object (m :: read).reverse, rest) := by
  have value := value?_of_member here enough ('\x7d' :: rest)
    (.inr ⟨'\x7d', rest, rfl, by decide⟩)
  rw [memberText_append, members?, skipSpace_cons '"' rfl]
  simp only [string?_stringText, skipSpace_cons ':' rfl, value, skipSpace_cons '\x7d' rfl,
    Option.bind_eq_bind, Option.bind_some, Option.pure_def]

end Member

/-- The members of an object are read if the value of each of them is. -/
theorem members?_of_readBack {first : String × Json} {members : List (String × Json)}
    (each : ∀ m ∈ first :: members, ReadBack m.2) (fuel : Nat) (read : List (String × Json))
    (rest : List Char)
    (enough : (memberText first).length + (membersText members).toList.length + 1 < fuel) :
    members? fuel read (memberText first ++ ((membersText members).toList ++ '\x7d' :: rest)) =
      some (.object (read.reverse ++ first :: members), rest) := by
  induction members generalizing first fuel read with
  | nil =>
    obtain ⟨fuel, rfl⟩ := Nat.exists_eq_add_one_of_ne_zero (Nat.ne_zero_of_lt enough)
    have ends : (membersText []).toList ++ '\x7d' :: rest = '\x7d' :: rest := rfl
    rw [ends, members?_brace (each first List.mem_cons_self) (by omega)]
    simp
  | cons next members ih =>
    obtain ⟨fuel, rfl⟩ := Nat.exists_eq_add_one_of_ne_zero (Nat.ne_zero_of_lt enough)
    obtain ⟨here, others⟩ := List.forall_mem_cons.1 each
    rw [toList_membersText] at enough ⊢
    simp only [List.length_cons, List.length_append] at enough
    have after := ih others fuel (first :: read) (by omega)
    rw [List.cons_append, List.append_assoc, members?_comma here (by omega)]
    simpa using after

theorem readBack_list {items : List Json} {depth : Nat}
    (plain : ∀ item ∈ items, Plain depth item) (each : ∀ item ∈ items, ReadBack item) :
    ReadBack (.list items) := by
  intro fuel rest _ enough
  obtain ⟨fuel, rfl⟩ := Nat.exists_eq_add_one_of_ne_zero (Nat.ne_zero_of_lt enough)
  cases items with
  | nil => rfl
  | cons item items =>
    obtain ⟨c, more, starts, opens⟩ := opens_of_plain (plain item List.mem_cons_self)
    have text : (toText (.list (item :: items))).toList ++ rest =
        '[' :: (item.toText.toList ++ ((itemsText items).toList ++ ']' :: rest)) := by
      simp [toText]
    have read := items?_of_readBack each fuel [] rest (by simp [toText] at enough; omega)
    rw [text, value?, skipSpace_cons '[' rfl]
    rw [starts, List.cons_append] at read ⊢
    simp only [opens.skipSpace_eq]
    split
    next same =>
      cases same
      exact absurd opens (by unfold Opens; decide)
    next => exact read

theorem readBack_object {members : List (String × Json)} (each : ∀ m ∈ members, ReadBack m.2) :
    ReadBack (.object members) := by
  intro fuel rest _ enough
  obtain ⟨fuel, rfl⟩ := Nat.exists_eq_add_one_of_ne_zero (Nat.ne_zero_of_lt enough)
  cases members with
  | nil => rfl
  | cons m members =>
    have text : (toText (.object (m :: members))).toList ++ rest =
        '\x7b' :: (memberText m ++ ((membersText members).toList ++ '\x7d' :: rest)) := by
      simp [toText, memberText]
    have read := members?_of_readBack each fuel [] rest
      (by simp [toText, memberText] at enough ⊢; omega)
    rw [text, value?, skipSpace_cons '\x7b' rfl]
    rw [memberText_append] at read ⊢
    simp only [skipSpace_cons '"' rfl]
    exact read

/-- A plain value is read from its text. -/
theorem readBack_of_plain {depth : Nat} {value : Json} (plain : Plain depth value) :
    ReadBack value := by
  induction plain with
  | null => exact readBack_null
  | text s => exact readBack_text s
  | word n => exact readBack_word n
  | list plain ih => exact readBack_list plain ih
  | object _ ih => exact readBack_object ih

end Nested
end Reader

theorem Plain.ofText?_toText {depth : Nat} {value : Json} (plain : Plain depth value) :
    ofText? value.toText = some value := by
  have read := Reader.readBack_of_plain plain _ [] (.inl rfl) (Nat.lt_succ_self _)
  rw [List.append_nil] at read
  rw [ofText?, read]
  rfl

end ApiCatalog.Json
