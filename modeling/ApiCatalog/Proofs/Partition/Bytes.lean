import ApiCatalog.Partition

/-!
# Segments by their bytes

A segment has ASCII characters only, and in UTF-8 such a character is one byte, less than 128, while
all others have bytes from 128 on only. Main statement: a text is a segment exactly if its first and
its last byte and all its bytes pass the corresponding checks (`isSegment_eq_bytes`).
-/
namespace ApiCatalog

/-- The byte of a letter or digit that may stand at the end of a segment. -/
def isLabelByte (b : UInt8) : Bool := (97 ≤ b && b ≤ 122) || (48 ≤ b && b ≤ 57)

def isSegmentBytes (bytes : List UInt8) : Bool :=
  bytes.head?.any isLabelByte && bytes.getLast?.any isLabelByte &&
    bytes.all fun b => isLabelByte b || b == 45

namespace Text

def utf8 (s : List Char) : List UInt8 := s.flatMap String.utf8EncodeChar

section OneCharacter

variable {c : Char}

theorem utf8EncodeChar_of_lt (ascii : c.toNat < 128) :
    String.utf8EncodeChar c = [UInt8.ofNat c.toNat] :=
  if_pos (Nat.le_of_lt_succ ascii)

theorem le_of_mem_utf8EncodeChar (wide : 128 ≤ c.toNat) {b : UInt8}
    (inside : b ∈ String.utf8EncodeChar c) : 128 ≤ b.toNat := by
  have several : ¬ c.val.toNat ≤ 127 := Nat.not_le.2 wide
  simp only [String.utf8EncodeChar, if_neg several] at inside
  -- The first byte starts with at least two ones in binary, each other one with a one and a zero.
  split at inside
  · simp only [List.mem_cons, List.not_mem_nil, or_false] at inside
    rcases inside with rfl | rfl <;> simp only [UInt8.toNat_ofNat'] <;> omega
  · split at inside
    · simp only [List.mem_cons, List.not_mem_nil, or_false] at inside
      rcases inside with rfl | rfl | rfl <;> simp only [UInt8.toNat_ofNat'] <;> omega
    · simp only [List.mem_cons, List.not_mem_nil, or_false] at inside
      rcases inside with rfl | rfl | rfl | rfl <;> simp only [UInt8.toNat_ofNat'] <;> omega

end OneCharacter

/-- A check of bytes that on ASCII is one of characters, and neither passes anything else. -/
structure Agrees (onByte : UInt8 → Bool) (onChar : Char → Bool) : Prop where
  ascii : ∀ c : Char, c.toNat < 128 → onByte (UInt8.ofNat c.toNat) = onChar c
  wide : ∀ c : Char, 128 ≤ c.toNat → onChar c = false
  byte : ∀ b : UInt8, 128 ≤ b.toNat → onByte b = false

namespace Agrees

variable {onByte : UInt8 → Bool} {onChar : Char → Bool} (agrees : Agrees onByte onChar)

include agrees

/-- Any byte of a character tells whether it passes. -/
theorem of_mem {c : Char} {b : UInt8} (inside : b ∈ String.utf8EncodeChar c) :
    onByte b = onChar c := by
  rcases Nat.lt_or_ge c.toNat 128 with ascii | wide
  · rw [utf8EncodeChar_of_lt ascii, List.mem_singleton] at inside
    rw [inside, agrees.ascii c ascii]
  · rw [agrees.wide c wide, agrees.byte b (le_of_mem_utf8EncodeChar wide inside)]

theorem all_utf8 (s : List Char) : (utf8 s).all onByte = s.all onChar := by
  have one (c : Char) : (String.utf8EncodeChar c).all onByte = onChar c := by
    obtain ⟨b, rest, bytes⟩ := List.exists_cons_of_ne_nil (String.utf8EncodeChar_ne_nil (c := c))
    rw [Bool.eq_iff_iff, List.all_eq_true]
    constructor
    · intro all
      have first : b ∈ String.utf8EncodeChar c := bytes ▸ List.mem_cons_self
      exact agrees.of_mem first ▸ all b first
    · intro passed b inside
      exact (agrees.of_mem inside).trans passed
  rw [utf8, List.all_flatMap]
  exact congrArg s.all (funext one)

theorem head?_utf8 (s : List Char) : (utf8 s).head?.any onByte = s.head?.any onChar := by
  cases s with
  | nil => rfl
  | cons c rest =>
    obtain ⟨b, others, bytes⟩ := List.exists_cons_of_ne_nil (String.utf8EncodeChar_ne_nil (c := c))
    rw [utf8, List.flatMap_cons, bytes]
    exact agrees.of_mem (bytes ▸ List.mem_cons_self)

theorem getLast?_utf8 (s : List Char) : (utf8 s).getLast?.any onByte = s.getLast?.any onChar := by
  by_cases empty : s = []
  · rw [empty]
    rfl
  · have filled : String.utf8EncodeChar (s.getLast empty) ≠ [] := String.utf8EncodeChar_ne_nil
    rw [← List.dropLast_concat_getLast empty, utf8, List.flatMap_append, List.flatMap_singleton,
      List.getLast?_concat, List.getLast?_append, List.getLast?_eq_some_getLast filled,
      Option.some_or]
    exact agrees.of_mem (List.getLast_mem filled)

end Agrees
end Text

theorem isLabelChar_iff_toNat {c : Char} :
    isLabelChar c = true ↔ 97 ≤ c.toNat ∧ c.toNat ≤ 122 ∨ 48 ≤ c.toNat ∧ c.toNat ≤ 57 := by
  simp [isLabelChar, Char.le_def, UInt32.le_iff_toNat_le]

theorem isLabelByte_iff_toNat {b : UInt8} :
    isLabelByte b = true ↔ 97 ≤ b.toNat ∧ b.toNat ≤ 122 ∨ 48 ≤ b.toNat ∧ b.toNat ≤ 57 := by
  simp [isLabelByte, UInt8.le_iff_toNat_le]

theorem agrees_label : Text.Agrees isLabelByte isLabelChar where
  ascii c ascii := by
    rw [Bool.eq_iff_iff, isLabelByte_iff_toNat, isLabelChar_iff_toNat, UInt8.toNat_ofNat',
      Nat.mod_eq_of_lt (by omega)]
  wide c wide := by
    rw [← Bool.not_eq_true, isLabelChar_iff_toNat]
    omega
  byte b wide := by
    rw [← Bool.not_eq_true, isLabelByte_iff_toNat]
    omega

theorem agrees_inner :
    Text.Agrees (fun b => isLabelByte b || b == 45) (fun c => isLabelChar c || c == '-') where
  ascii c ascii := by
    have hyphen : (UInt8.ofNat c.toNat == 45) = (c == '-') := by
      rw [Bool.eq_iff_iff, beq_iff_eq, beq_iff_eq, ← UInt8.toNat_inj, ← Char.toNat_inj,
        UInt8.toNat_ofNat', Nat.mod_eq_of_lt (by omega)]
      rfl
    rw [agrees_label.ascii c ascii, hyphen]
  wide c wide := by
    have other : c ≠ '-' := by
      rintro rfl
      exact absurd wide (by decide)
    simp [agrees_label.wide c wide, other]
  byte b wide := by
    have other : b ≠ 45 := by
      rintro rfl
      exact absurd wide (by decide)
    simp [agrees_label.byte b wide, other]

theorem isSegment_eq_bytes (s : List Char) : isSegment s = isSegmentBytes (Text.utf8 s) := by
  rw [isSegment, isSegmentBytes, agrees_label.head?_utf8, agrees_label.getLast?_utf8,
    agrees_inner.all_utf8]

end ApiCatalog
