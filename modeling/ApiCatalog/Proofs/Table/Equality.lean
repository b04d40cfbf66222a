import ApiCatalog.Proofs.Table
import Mathlib.Data.List.Sort

/-!
# Equal tables

Two tables are equal if every look-up gives the same in both (`Table.eq_of_get?`). So what is put
under a key can be taken back, and a table is made anew from its rows (`Table.ofRows_rows`).
-/
namespace ApiCatalog.Table

variable {κ α : Type} [Ord κ] [Std.TransOrd κ]

section Rows

/-- Rows that follow those of a table are put after them. -/
theorem rows_foldl_insert {rows : List (κ × α)} {t : Table κ α}
    (sorted : (t.rows ++ rows).Pairwise fun a b => compare a.1 b.1 = .lt) :
    (rows.foldl (fun t row => t.insert row.1 row.2) t).rows = t.rows ++ rows := by
  induction rows generalizing t with
  | nil => exact (List.append_nil t.rows).symm
  | cons row rest ih =>
    obtain ⟨-, -, across⟩ := List.pairwise_append.1 sorted
    have last : (t.insert row.1 row.2).rows = t.rows ++ [row] := by
      have less : ∀ other ∈ t.rows, compare other.1 row.1 = .lt :=
        fun other inside => across other inside row List.mem_cons_self
      have placed := insertRow_append row.2 less []
      rwa [List.append_nil] at placed
    rw [List.foldl_cons, ih]
    · rw [last, List.append_assoc, List.singleton_append]
    · rw [last, List.append_assoc, List.singleton_append]
      exact sorted

theorem ofRows_rows (t : Table κ α) : ofRows t.rows = t :=
  ext_rows (rows_foldl_insert (t := empty) t.sorted)

end Rows

section LookUp

variable [Std.LawfulEqOrd κ]

theorem eq_of_get? {s t : Table κ α} (same : ∀ key, s.get? key = t.get? key) : s = t := by
  let before : κ × α → κ × α → Prop := fun a b => compare a.1 b.1 = .lt
  have irreflexive : Std.Irrefl before :=
    ⟨fun a less => by simp [before, Std.ReflOrd.compare_self] at less⟩
  have antisymmetric : Std.Antisymm before := ⟨fun a b less more => by
    have greater := Std.OrientedCmp.gt_of_lt less
    rw [show compare b.1 a.1 = .lt from more] at greater
    cases greater⟩
  refine ext_rows (List.Pairwise.eq_of_mem_iff (r := before) s.sorted t.sorted fun row => ?_)
  rw [mem_rows_iff, mem_rows_iff, same]

variable [DecidableEq κ] {t : Table κ α} {key : κ} {a b : α}

theorem insert_insert : (t.insert key a).insert key b = t.insert key b := by
  refine eq_of_get? fun other => ?_
  simp only [get?_insert]
  split <;> rfl

theorem insert_of_get? (stored : t.get? key = some a) : t.insert key a = t := by
  refine eq_of_get? fun other => ?_
  rw [get?_insert]
  split
  next same => rw [same, stored]
  next => rfl

theorem erase_insert (free : t.get? key = none) : (t.insert key a).erase key = t := by
  refine eq_of_get? fun other => ?_
  rw [get?_erase, get?_insert]
  split
  next same => rw [same, free]
  next => rfl

end LookUp
end ApiCatalog.Table
