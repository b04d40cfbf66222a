/-!
# Tables in key order

A `Table` holds at most one value for each key and lists its rows in strictly increasing key order,
so that two tables with the same rows are the same table. Main statements: what `get?` sees after
`insert` and `erase`.
-/
namespace ApiCatalog

/-- The row order is part of the type. -/
structure Table (κ α : Type) [Ord κ] where
  rows : List (κ × α)
  sorted : rows.Pairwise fun a b => compare a.1 b.1 = .lt
  deriving DecidableEq

namespace Table

variable {κ α : Type} [Ord κ]

def empty : Table κ α := ⟨[], .nil⟩

instance : EmptyCollection (Table κ α) := ⟨empty⟩

instance : Inhabited (Table κ α) := ⟨empty⟩

/-- The value stored under the key. -/
def get? (t : Table κ α) (key : κ) : Option α :=
  (t.rows.find? fun row => compare key row.1 == .eq).map Prod.snd

def contains (t : Table κ α) (key : κ) : Bool := (t.get? key).isSome

def values (t : Table κ α) : List α := t.rows.map Prod.snd

/-- The rows with `key` put in its place, in place of a row of the same key. -/
def insertRow (key : κ) (value : α) : List (κ × α) → List (κ × α)
  | [] => [(key, value)]
  | row :: rest =>
    match compare key row.1 with
    | .lt => (key, value) :: row :: rest
    | .eq => (key, value) :: rest
    | .gt => row :: insertRow key value rest

theorem mem_insertRow {key : κ} {value : α} {rows : List (κ × α)} {row : κ × α}
    (h : row ∈ insertRow key value rows) : row = (key, value) ∨ row ∈ rows := by
  induction rows with
  | nil => simpa [insertRow] using h
  | cons first rest ih =>
    unfold insertRow at h
    split at h
    · simpa using h
    · rcases List.mem_cons.1 h with h | h
      · exact .inl h
      · exact .inr (List.mem_cons_of_mem _ h)
    · rcases List.mem_cons.1 h with h | h
      · exact .inr (h ▸ List.mem_cons_self)
      · exact (ih h).imp id (List.mem_cons_of_mem _)

theorem sorted_insertRow [Std.TransOrd κ] {key : κ} {value : α} {rows : List (κ × α)}
    (h : rows.Pairwise fun a b => compare a.1 b.1 = .lt) :
    (insertRow key value rows).Pairwise fun a b => compare a.1 b.1 = .lt := by
  induction rows with
  | nil => exact List.pairwise_singleton _ _
  | cons first rest ih =>
    have hrest := List.pairwise_cons.1 h
    unfold insertRow
    split
    · next hlt =>
      refine List.pairwise_cons.2 ⟨fun row hrow => ?_, h⟩
      rcases List.mem_cons.1 hrow with rfl | hrow
      · exact hlt
      · exact Std.TransCmp.lt_trans hlt (hrest.1 row hrow)
    · next heq =>
      refine List.pairwise_cons.2 ⟨fun row hrow => ?_, hrest.2⟩
      exact Std.TransCmp.lt_of_eq_of_lt heq (hrest.1 row hrow)
    · next hgt =>
      refine List.pairwise_cons.2 ⟨fun row hrow => ?_, ih hrest.2⟩
      rcases mem_insertRow hrow with rfl | hrow
      · exact Std.OrientedCmp.lt_of_gt hgt
      · exact hrest.1 row hrow

/-- Stores a value, in place of one stored under the same key. -/
def insert [Std.TransOrd κ] (t : Table κ α) (key : κ) (value : α) : Table κ α :=
  ⟨insertRow key value t.rows, sorted_insertRow t.sorted⟩

/-- Keeps the rows that satisfy the test. -/
def filter (test : κ → α → Bool) (t : Table κ α) : Table κ α :=
  ⟨t.rows.filter fun row => test row.1 row.2, t.sorted.filter _⟩

def erase (t : Table κ α) (key : κ) : Table κ α :=
  t.filter fun k _ => compare key k != .eq

/-- The table of a list of rows; of rows with the same key the last one counts. -/
def ofRows [Std.TransOrd κ] (rows : List (κ × α)) : Table κ α :=
  rows.foldl (fun t row => t.insert row.1 row.2) empty

@[ext] theorem ext_rows {s t : Table κ α} (h : s.rows = t.rows) : s = t := by
  cases s; cases t; cases h; rfl

@[simp] theorem get?_empty (key : κ) : (empty : Table κ α).get? key = none := rfl

section Lawful

variable [Std.TransOrd κ] [Std.LawfulEqOrd κ]

omit [Std.TransOrd κ] in
theorem find?_insertRow (key other : κ) (value : α) (rows : List (κ × α)) :
    (insertRow key value rows).find? (fun row => compare other row.1 == .eq) =
      if compare other key = .eq then some (key, value)
      else rows.find? fun row => compare other row.1 == .eq := by
  induction rows with
  | nil => by_cases h : compare other key = .eq <;> simp [insertRow, h]
  | cons first rest ih =>
    unfold insertRow
    split
    · by_cases h : compare other key = .eq <;> simp [h]
    · next heq =>
      have hk : key = first.1 := Std.LawfulEqCmp.eq_of_compare heq
      by_cases h : compare other key = .eq <;> simp [h, ← hk]
    · next hgt =>
      by_cases h : compare other key = .eq
      · have hk : other = key := Std.LawfulEqCmp.eq_of_compare h
        subst hk
        simp [ih, hgt]
      · simp only [h, if_false] at ih ⊢
        simp only [List.find?_cons, ih]

variable [DecidableEq κ]

theorem get?_insert (t : Table κ α) (key other : κ) (value : α) :
    (t.insert key value).get? other = if other = key then some value else t.get? other := by
  have hiff : compare other key = .eq ↔ other = key := Std.LawfulEqCmp.compare_eq_iff_eq
  simp only [get?, insert, find?_insertRow, hiff]
  split <;> rfl

@[simp] theorem get?_insert_self (t : Table κ α) (key : κ) (value : α) :
    (t.insert key value).get? key = some value := by
  simp [get?_insert]

omit [Std.TransOrd κ] in
theorem get?_erase (t : Table κ α) (key other : κ) :
    (t.erase key).get? other = if other = key then none else t.get? other := by
  have hiff : ∀ a b : κ, compare a b = .eq ↔ a = b := fun _ _ => Std.LawfulEqCmp.compare_eq_iff_eq
  simp only [get?, erase, filter, List.find?_filter]
  by_cases h : other = key
  · subst h
    simp [hiff]
  · simp only [h, if_false]
    congr 2
    funext row
    by_cases hr : other = row.1
    · subst hr
      simp [hiff, Ne.symm h]
    · simp [hiff, hr]

end Lawful

end Table
end ApiCatalog
