import ApiCatalog.Condition

/-!
# Slots of conditions

Main statements: what `put` does to a list, by the place of the slot (`put_eq_modify`); exactly the
lists whose first slot of the type says the same already are left as they are (`put_eq_self_iff`),
and what was put last stays if only the time is another (`put_put`). Of the conditions of a type
`set` replaces the first one only (`ofType_set_self`), so that it neither brings a second one nor
takes it away (`oneEach_foldl_set`).
-/
namespace ApiCatalog

namespace Condition

/-- A condition in all but its time. -/
def state (c : Condition) : String × ConditionStatus × Severity × Option String × Option String :=
  (c.type, c.status, c.severity, c.reason, c.message)

theorem sameState_iff {a b : Condition} : a.sameState b = true ↔ a.state = b.state := by
  simp [sameState, state, and_assoc]

theorem eq_of_state {a b : Condition} (same : a.state = b.state)
    (time : a.lastTransition = b.lastTransition) : a = b := by
  cases a
  cases b
  simp_all [state]

theorem type_eq_of_state {a b : Condition} (same : a.state = b.state) : a.type = b.type :=
  congrArg Prod.fst same

theorem after_state (c old : Condition) : (c.after old).state = c.state := by
  unfold after
  split <;> rfl

theorem after_type (c old : Condition) : (c.after old).type = c.type :=
  type_eq_of_state (after_state c old)

theorem after_eq_self_iff {c old : Condition} : c.after old = old ↔ old.state = c.state := by
  constructor
  · intro same
    rw [← same]
    exact after_state c old
  · intro same
    rw [after, if_pos (sameState_iff.2 same)]
    exact eq_of_state same.symm rfl

theorem after_of_ne {c old : Condition} (turned : old.state ≠ c.state) : c.after old = c :=
  if_neg fun same => turned (sameState_iff.1 same)

end Condition

namespace Conditions

theorem put_cons_of_eq {c slot : Condition} (own : slot.type = c.type) (rest : List Condition) :
    put c (slot :: rest) = c.after slot :: rest := by
  simp [put, own]

theorem put_cons_of_ne {c slot : Condition} (other : slot.type ≠ c.type) (rest : List Condition) :
    put c (slot :: rest) = slot :: put c rest := by
  simp [put, other]

/-- Slots of other types stay in front. -/
theorem put_append {c : Condition} {before : List Condition}
    (others : ∀ slot ∈ before, slot.type ≠ c.type) (rest : List Condition) :
    put c (before ++ rest) = before ++ put c rest := by
  induction before with
  | nil => rfl
  | cons slot before ih =>
    obtain ⟨here, others⟩ := List.forall_mem_cons.1 others
    rw [List.cons_append, put_cons_of_ne here, ih others, List.cons_append]

/-- Only the first slot of the type is replaced, or a new one is put at the end. -/
theorem put_eq_modify (c : Condition) (slots : List Condition) :
    put c slots = match slots.findIdx? (·.type == c.type) with
      | some i => slots.modify i c.after
      | none => slots ++ [c] := by
  induction slots with
  | nil => rfl
  | cons slot rest ih =>
    by_cases own : slot.type = c.type
    · simp [put_cons_of_eq own, own, List.findIdx?_cons]
    · simp only [put_cons_of_ne own, beq_iff_eq, own, if_false, ih, List.findIdx?_cons]
      cases rest.findIdx? (·.type == c.type) with
      | none => simp
      | some i => simp

theorem put_eq_self_iff {c : Condition} {slots : List Condition} :
    put c slots = slots ↔
      ∃ old, slots.find? (·.type == c.type) = some old ∧ old.state = c.state := by
  induction slots with
  | nil => simp [put]
  | cons slot rest ih =>
    by_cases own : slot.type = c.type
    · simp [put_cons_of_eq own, own, Condition.after_eq_self_iff]
    · simp [put_cons_of_ne own, own, ih]

/-- A condition that says the same at another time leaves what was put as it is. -/
theorem put_put {c d : Condition} (same : c.state = d.state) (slots : List Condition) :
    put d (put c slots) = put c slots := by
  have type := Condition.type_eq_of_state same
  induction slots with
  | nil => rw [put, put_cons_of_eq type, Condition.after_eq_self_iff.2 same]
  | cons slot rest ih =>
    by_cases own : slot.type = c.type
    · have state := Condition.after_state c slot
      rw [put_cons_of_eq own, put_cons_of_eq ((Condition.type_eq_of_state state).trans type),
        Condition.after_eq_self_iff.2 (state.trans same)]
    · rw [put_cons_of_ne own, put_cons_of_ne (type ▸ own), ih]

section OneEach

/-- The conditions of a type, in their order. -/
def ofType (cs : Conditions) (type : String) : List Condition :=
  cs.slots.filter (·.type == type)

/-- No type has two conditions. -/
def OneEach (cs : Conditions) : Prop := ∀ type, (cs.ofType type).length ≤ 1

variable (cs : Conditions) (c : Condition)

theorem ofType_set_self :
    (cs.set c).ofType c.type = match cs.ofType c.type with
      | [] => [c]
      | old :: rest => c.after old :: rest := by
  unfold ofType set
  induction cs.slots with
  | nil => simp [put]
  | cons slot rest ih =>
    by_cases own : slot.type = c.type
    · simp [put_cons_of_eq own, own, Condition.after_type]
    · simpa [put_cons_of_ne own, own] using ih

theorem ofType_set_of_ne {type : String} (other : type ≠ c.type) :
    (cs.set c).ofType type = cs.ofType type := by
  unfold ofType set
  induction cs.slots with
  | nil => simp [put, Ne.symm other]
  | cons slot rest ih =>
    by_cases own : slot.type = c.type
    · simp [put_cons_of_eq own, own, Condition.after_type, Ne.symm other]
    · simp only [put_cons_of_ne own, List.filter_cons, ih]

theorem length_ofType_set (type : String) :
    ((cs.set c).ofType type).length =
      if type = c.type then max 1 (cs.ofType type).length else (cs.ofType type).length := by
  by_cases own : type = c.type
  · rw [own, if_pos rfl, ofType_set_self]
    cases cs.ofType c.type with
    | nil => rfl
    | cons old rest => simp
  · rw [if_neg own, ofType_set_of_ne cs c own]

theorem oneEach_set : (cs.set c).OneEach ↔ cs.OneEach := by
  refine forall_congr' fun type => ?_
  rw [length_ofType_set]
  split <;> omega

/-- Whether a type has two conditions is decided before the first one is set. -/
theorem oneEach_foldl_set (sets : List Condition) : (sets.foldl set cs).OneEach ↔ cs.OneEach := by
  induction sets generalizing cs with
  | nil => rfl
  | cons c rest ih => exact (ih (cs.set c)).trans (oneEach_set cs c)

theorem oneEach_ofList (list : List Condition) : (ofList list).OneEach :=
  (oneEach_foldl_set empty list).2 fun _ => Nat.zero_le 1

end OneEach

end Conditions
end ApiCatalog
