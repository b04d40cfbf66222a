import ApiCatalog.Document.Basic
import ApiCatalog.Proofs.Json.Wire
import ApiCatalog.Proofs.Text.Numeral

/-!
# Documents of plain values

A scalar without quotes may be read as another kind of value than was written; a plain value has no
such scalar. Main statement: the document that shows a plain value is read as that value
(`Document.value?_ofJson`).
-/
namespace ApiCatalog.Document

theorem ofItems_eq_map (items : List Json) : ofItems items = items.map ofJson := by
  induction items with
  | nil => rfl
  | cons item rest ih => rw [ofItems, ih, List.map_cons]

theorem ofMembers_eq_map (members : List (String × Json)) :
    ofMembers members = members.map fun m => (m.1, ofJson m.2) := by
  induction members with
  | nil => rfl
  | cons m rest ih => rw [ofMembers, ih, List.map_cons]

section Integers

variable (n : Nat)

/-- The digits of a number start with a digit, and so with no letter and no sign. -/
theorem exists_toDigits : ∃ c rest, Nat.toDigits 10 n = c :: rest ∧ c.isDigit = true := by
  cases digits : Nat.toDigits 10 n with
  | nil => exact absurd digits Nat.toDigits_ne_nil
  | cons c rest =>
    have inside : c ∈ Nat.toDigits 10 n := digits ▸ List.mem_cons_self
    exact ⟨c, rest, rfl, Nat.isDigit_of_mem_toDigits (by decide) (by decide) inside⟩

theorem toList_toString : (toString (n : Int)).toList = Nat.toDigits 10 n := by
  show (toString n).toList = _
  rw [Nat.toString_eq_ofList_toDigits, String.toList_ofList]

theorem integer?_toString : integer? (toString (n : Int)) = some (n : Int) := by
  have read := Text.natural?_toDigits n
  obtain ⟨c, rest, digits, digit⟩ := exists_toDigits n
  unfold integer?
  rw [digits] at read
  rw [toList_toString, digits]
  split
  next same =>
    cases same
    cases digit
  next => rw [read, Option.map_some, Int.ofNat_eq_natCast]

theorem toString_ne {word : String} (letter : word.toList.head?.any Char.isDigit = false) :
    toString (n : Int) ≠ word := by
  rintro rfl
  obtain ⟨c, rest, digits, digit⟩ := exists_toDigits n
  rw [toList_toString, digits] at letter
  simp [digit] at letter

theorem plainValue?_word (word : UInt64) :
    plainValue? (toString (word.toNat : Int)) = some (.integer word.toNat) := by
  have fits : Text.fits 64 word.toNat = true := by
    have bound := word.toNat_lt
    simp only [Text.fits, Nat.pow_eq, Bool.and_eq_true, decide_eq_true_eq]
    omega
  unfold plainValue?
  rw [if_neg (toString_ne _ rfl), if_neg (toString_ne _ rfl), if_neg (toString_ne _ rfl),
    integer?_toString]
  exact if_pos fits

end Integers

theorem itemValues?_eq {depth : Nat} {items : List Json}
    (each : ∀ item ∈ items, value? depth (ofJson item) = some item) :
    itemValues? depth (ofItems items) = some items := by
  induction items with
  | nil => rw [ofItems, itemValues?]
  | cons item rest ih =>
    obtain ⟨here, others⟩ := List.forall_mem_cons.1 each
    rw [ofItems, itemValues?, here, ih others]
    rfl

theorem memberValues?_eq {depth : Nat} {members : List (String × Json)}
    (each : ∀ m ∈ members, value? depth (ofJson m.2) = some m.2) :
    memberValues? depth (ofMembers members) = some members := by
  induction members with
  | nil => rw [ofMembers, memberValues?]
  | cons m rest ih =>
    obtain ⟨here, others⟩ := List.forall_mem_cons.1 each
    rw [ofMembers, memberValues?, here, ih others]
    rfl

/-- A plain value is read from the document that shows it. -/
theorem value?_ofJson {depth : Nat} {json : Json} (plain : json.Plain depth) :
    value? depth (ofJson json) = some json := by
  induction plain with
  | null => rfl
  | text value => rw [ofJson, value?]
  | word value => rw [ofJson, value?, plainValue?_word]
  | list each ih => rw [ofJson, value?, itemValues?_eq ih, Option.map_some]
  | object each ih => rw [ofJson, value?, memberValues?_eq ih, Option.map_some]

end ApiCatalog.Document
