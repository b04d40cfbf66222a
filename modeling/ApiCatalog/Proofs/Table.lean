import ApiCatalog.Table

/-!
# Look-up and rows of a table

A table is determined by what `get?` finds. Main statements: a row is in the table exactly if `get?`
finds it (`mem_rows_iff`), and so is a value that passes a filter (`mem_values_filter`). A table that
is made of rows has the last one of each key (`get?_ofRows`). A row under a new key joins the others
(`rows_insert_perm`), so that of rows with different keys none is lost (`rows_ofRows_perm`).
-/
namespace ApiCatalog.Table

variable {κ α : Type} [Ord κ] [Std.TransOrd κ] [Std.LawfulEqOrd κ]

omit [Std.TransOrd κ] in
private theorem find?_of_mem {rows : List (κ × α)} {row : κ × α}
    (sorted : rows.Pairwise fun a b => compare a.1 b.1 = .lt) (member : row ∈ rows) :
    rows.find? (fun other => compare row.1 other.1 == .eq) = some row := by
  induction rows with
  | nil => cases member
  | cons first rest ih =>
    obtain ⟨before, tail⟩ := List.pairwise_cons.1 sorted
    rcases List.mem_cons.1 member with rfl | inside
    · simp [Std.ReflOrd.compare_self]
    · have apart : compare row.1 first.1 ≠ .eq := by
        intro same
        have equal : row.1 = first.1 := Std.LawfulEqCmp.eq_of_compare same
        have less := before row inside
        rw [equal, Std.ReflOrd.compare_self] at less
        cases less
      rw [List.find?_cons_of_neg (by simpa using apart)]
      exact ih tail inside

omit [Std.TransOrd κ] in
theorem mem_rows_iff {t : Table κ α} {key : κ} {value : α} :
    (key, value) ∈ t.rows ↔ t.get? key = some value := by
  constructor
  · intro member
    simp [get?, find?_of_mem t.sorted member]
  · intro found
    obtain ⟨row, hrow, rfl⟩ := Option.map_eq_some_iff.1 found
    have same : key = row.1 := by simpa using List.find?_some hrow
    subst same
    exact List.mem_of_find?_eq_some hrow

omit [Std.TransOrd κ] in
theorem mem_values_filter {t : Table κ α} {test : κ → α → Bool} {value : α} :
    value ∈ (t.filter test).values ↔ ∃ key, t.get? key = some value ∧ test key value = true := by
  simp only [values, filter, List.mem_map, List.mem_filter]
  constructor
  · rintro ⟨⟨key, other⟩, ⟨member, passes⟩, rfl⟩
    exact ⟨key, mem_rows_iff.1 member, passes⟩
  · rintro ⟨key, found, passes⟩
    exact ⟨(key, value), ⟨mem_rows_iff.2 found, passes⟩, rfl⟩

omit [Std.TransOrd κ] in
theorem get?_filter (t : Table κ α) (test : κ → α → Bool) (key : κ) :
    (t.filter test).get? key = (t.get? key).filter (test key) := by
  ext value
  rw [← mem_rows_iff, Option.filter_eq_some_iff, ← mem_rows_iff]
  exact List.mem_filter

omit [Std.LawfulEqOrd κ] in
/-- A row goes behind those with lesser keys. -/
theorem insertRow_append {key : κ} (value : α) {before : List (κ × α)}
    (less : ∀ row ∈ before, compare row.1 key = .lt) (after : List (κ × α)) :
    insertRow key value (before ++ after) = before ++ insertRow key value after := by
  induction before with
  | nil => rfl
  | cons first rest ih =>
    obtain ⟨here, others⟩ := List.forall_mem_cons.1 less
    rw [List.cons_append, insertRow, Std.OrientedCmp.gt_of_lt here]
    simp only [ih others, List.cons_append]

/-- A value that is replaced leaves all other rows in their places. -/
theorem rows_insert_of_get? {t : Table κ α} {key : κ} {old : α} (stored : t.get? key = some old) :
    ∃ before after, t.rows = before ++ (key, old) :: after ∧
      ∀ new, (t.insert key new).rows = before ++ (key, new) :: after := by
  obtain ⟨before, after, split⟩ := List.append_of_mem (mem_rows_iff.2 stored)
  refine ⟨before, after, split, fun new => ?_⟩
  have sorted := t.sorted
  rw [split] at sorted
  obtain ⟨-, -, across⟩ := List.pairwise_append.1 sorted
  have less : ∀ row ∈ before, compare row.1 key = .lt :=
    fun row inside => across row inside _ List.mem_cons_self
  have here : insertRow key new ((key, old) :: after) = (key, new) :: after := by
    simp [insertRow, Std.ReflOrd.compare_self]
  change insertRow key new t.rows = _
  rw [split, insertRow_append new less, here]

section Keys

variable [DecidableEq κ]

theorem get?_insert_ne {t : Table κ α} {key other : κ} {value : α} (apart : other ≠ key) :
    (t.insert key value).get? other = t.get? other := by
  rw [get?_insert, if_neg apart]

/-- Only the row of the key can be new after an insertion. -/
theorem get?_insert_cases {t : Table κ α} {key other : κ} {value found : α}
    (h : (t.insert key value).get? other = some found) :
    other = key ∧ found = value ∨ t.get? other = some found := by
  rw [get?_insert] at h
  split at h
  next same => exact .inl ⟨same, (Option.some.inj h).symm⟩
  · exact .inr h

omit [Std.TransOrd κ] in
theorem get?_of_get?_erase {t : Table κ α} {key other : κ} {found : α}
    (h : (t.erase key).get? other = some found) : other ≠ key ∧ t.get? other = some found := by
  rw [get?_erase] at h
  split at h
  · cases h
  next apart => exact ⟨apart, h⟩

/-- Of rows with one key the last one counts. -/
theorem get?_ofRows (rows : List (κ × α)) (key : κ) :
    (ofRows rows).get? key = ((rows.filter (·.1 = key)).getLast?).map Prod.snd := by
  have main : ∀ (rows : List (κ × α)) (t : Table κ α),
      (rows.foldl (fun t row => t.insert row.1 row.2) t).get? key =
        (((rows.filter (·.1 = key)).getLast?).map Prod.snd).or (t.get? key) := by
    intro rows
    induction rows with
    | nil => exact fun t => rfl
    | cons row rest ih =>
      intro t
      rw [List.foldl_cons, ih, get?_insert]
      by_cases here : row.1 = key
      · rw [List.filter_cons_of_pos (by simpa using here), List.getLast?_cons, if_pos here.symm]
        cases (rest.filter (·.1 = key)).getLast? <;> rfl
      · rw [List.filter_cons_of_neg (by simpa using here), if_neg (Ne.symm here)]
  rw [ofRows, main, get?_empty, Option.or_none]

theorem get?_ofRows_mem {rows : List (κ × α)} {key : κ} {value : α}
    (h : (ofRows rows).get? key = some value) : (key, value) ∈ rows := by
  rw [get?_ofRows] at h
  obtain ⟨row, last, rfl⟩ := Option.map_eq_some_iff.1 h
  obtain ⟨member, here⟩ := List.mem_filter.1 (List.mem_of_getLast? last)
  cases of_decide_eq_true here
  exact member

end Keys

section Rows

omit [Std.TransOrd κ] [Std.LawfulEqOrd κ] in
theorem insertRow_perm {key : κ} (value : α) {rows : List (κ × α)}
    (free : ∀ row ∈ rows, compare key row.1 ≠ .eq) :
    (insertRow key value rows).Perm ((key, value) :: rows) := by
  induction rows with
  | nil => exact .refl _
  | cons first rest ih =>
    obtain ⟨here, others⟩ := List.forall_mem_cons.1 free
    unfold insertRow
    split
    · exact .refl _
    next same => exact absurd same here
    · exact ((ih others).cons first).trans (.swap ..)

omit [Std.LawfulEqOrd κ] in
theorem rows_insert_perm {t : Table κ α} {key : κ} (value : α) (free : t.get? key = none) :
    (t.insert key value).rows.Perm ((key, value) :: t.rows) := by
  refine insertRow_perm value fun row inside => ?_
  have apart := List.find?_eq_none.1 (Option.map_eq_none_iff.1 free) row inside
  simpa using apart

omit [Std.TransOrd κ] in
/-- No key has two rows. -/
theorem nodup_keys (t : Table κ α) : (t.rows.map Prod.fst).Nodup := by
  refine List.pairwise_map.2 (t.sorted.imp fun less same => ?_)
  rw [same, Std.ReflOrd.compare_self] at less
  cases less

/-- Rows with different keys are all in the table. -/
theorem rows_ofRows_perm [DecidableEq κ] {rows : List (κ × α)}
    (distinct : (rows.map Prod.fst).Nodup) : (ofRows rows).rows.Perm rows := by
  -- By induction on the rows that are still to come, which are new to the table so far.
  have main : ∀ (rows : List (κ × α)) (t : Table κ α), (rows.map Prod.fst).Nodup →
      (∀ row ∈ rows, t.get? row.1 = none) →
        (rows.foldl (fun t row => t.insert row.1 row.2) t).rows.Perm (rows ++ t.rows) := by
    intro rows
    induction rows with
    | nil => exact fun t _ _ => .refl _
    | cons row rest ih =>
      intro t distinct free
      obtain ⟨new, others⟩ := List.nodup_cons.1 distinct
      obtain ⟨here, after⟩ := List.forall_mem_cons.1 free
      have still : ∀ other ∈ rest, (t.insert row.1 row.2).get? other.1 = none := by
        intro other inside
        have apart : other.1 ≠ row.1 := fun same => new (same ▸ List.mem_map_of_mem inside)
        rw [get?_insert_ne apart, after other inside]
      have rest := ih (t.insert row.1 row.2) others still
      exact rest.trans (((rows_insert_perm row.2 here).append_left _).trans List.perm_middle)
  have whole := main rows empty distinct fun row _ => get?_empty row.1
  rwa [empty, List.append_nil] at whole

end Rows
end ApiCatalog.Table
