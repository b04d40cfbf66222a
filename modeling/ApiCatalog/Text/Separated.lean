/-!
# Text between separators

`separated mark s` lists the pieces of `s` between the occurrences of `mark`; there is always at
least one. Main statements: the pieces joined again give `s` (`joined_separated`), no piece holds
the separator (`not_mem_of_mem_separated`), there is no other list of such pieces that joined gives
`s` (`separated_joined`), and a separator between two texts keeps their pieces apart
(`separated_append`).
-/
namespace ApiCatalog.Text

/-- The pieces between the separators, the first one apart. -/
def separate (mark : Char) : List Char → List Char × List (List Char)
  | [] => ([], [])
  | c :: rest =>
    let tail := separate mark rest
    if c = mark then ([], tail.1 :: tail.2) else (c :: tail.1, tail.2)

def separated (mark : Char) (s : List Char) : List (List Char) :=
  (separate mark s).1 :: (separate mark s).2

/-- The pieces with one separator between each two. -/
def joined (mark : Char) : List (List Char) → List Char
  | [] => []
  | [piece] => piece
  | piece :: others => piece ++ mark :: joined mark others

theorem separated_ne_nil (mark : Char) (s : List Char) : separated mark s ≠ [] := by
  simp [separated]

theorem joined_separated (mark : Char) (s : List Char) : joined mark (separated mark s) = s := by
  induction s with
  | nil => rfl
  | cons c rest ih =>
    simp only [separated] at ih
    by_cases hc : c = mark
    · simp [separated, separate, hc, joined, ih]
    · cases hs : (separate mark rest).2 with
      | nil => simpa [separated, separate, hc, hs, joined] using ih
      | cons other others => simpa [separated, separate, hc, hs, joined] using ih

theorem joined_cons {mark : Char} {others : List (List Char)} (some : others ≠ [])
    (piece : List Char) : joined mark (piece :: others) = piece ++ mark :: joined mark others := by
  cases others with
  | nil => exact absurd rfl some
  | cons other others => rfl

theorem joined_concat {mark : Char} {pieces : List (List Char)} (some : pieces ≠ [])
    (last : List Char) : joined mark (pieces ++ [last]) = joined mark pieces ++ mark :: last := by
  induction pieces with
  | nil => exact absurd rfl some
  | cons piece others ih =>
    cases others with
    | nil => rfl
    | cons other others =>
      have filled : other :: others ≠ [] := List.cons_ne_nil other others
      rw [List.cons_append, joined_cons (List.append_ne_nil_of_left_ne_nil filled _), ih filled,
        joined_cons filled piece, List.append_assoc, List.cons_append]

theorem separated_append (mark : Char) (s t : List Char) :
    separated mark (s ++ mark :: t) = separated mark s ++ separated mark t := by
  induction s with
  | nil => simp [separated, separate]
  | cons c rest ih =>
    simp only [separated] at ih
    obtain ⟨first, others⟩ := List.cons.inj ih
    by_cases hc : c = mark
    · simp [separated, separate, hc, first, others]
    · simp [separated, separate, hc, first, others]

theorem separated_of_not_mem {mark : Char} {s : List Char} (free : mark ∉ s) :
    separated mark s = [s] := by
  have main : separate mark s = (s, []) := by
    induction s with
    | nil => rfl
    | cons c rest ih =>
      obtain ⟨here, later⟩ := not_or.1 (mt List.mem_cons.2 free)
      rw [separate, if_neg (Ne.symm here), ih later]
  rw [separated, main]

theorem joined_eq_append_flatMap (mark : Char) (piece : List Char) (others : List (List Char)) :
    joined mark (piece :: others) = piece ++ others.flatMap (mark :: ·) := by
  induction others generalizing piece with
  | nil => simp [joined]
  | cons other others ih =>
    rw [joined_cons (List.cons_ne_nil other others), ih, List.flatMap_cons, List.cons_append]

theorem separated_joined {mark : Char} {pieces : List (List Char)} (some : pieces ≠ [])
    (free : ∀ piece ∈ pieces, mark ∉ piece) : separated mark (joined mark pieces) = pieces := by
  induction pieces with
  | nil => exact absurd rfl some
  | cons piece others ih =>
    obtain ⟨here, later⟩ := List.forall_mem_cons.1 free
    cases others with
    | nil => exact separated_of_not_mem here
    | cons other others =>
      have filled : other :: others ≠ [] := List.cons_ne_nil other others
      rw [joined_cons filled, separated_append, separated_of_not_mem here, ih filled later]
      rfl

theorem not_mem_of_mem_separated {mark : Char} {s piece : List Char}
    (h : piece ∈ separated mark s) : mark ∉ piece := by
  have main : mark ∉ (separate mark s).1 ∧ ∀ p ∈ (separate mark s).2, mark ∉ p := by
    clear h
    induction s with
    | nil => simp [separate]
    | cons c rest ih =>
      by_cases hc : c = mark
      · simpa [separate, hc] using ih
      · simpa [separate, hc, Ne.symm hc] using ih
  rcases List.mem_cons.1 h with rfl | h
  · exact main.1
  · exact main.2 piece h

end ApiCatalog.Text
