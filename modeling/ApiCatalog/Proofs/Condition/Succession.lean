import ApiCatalog.Proofs.Reconcile.Transition
import Mathlib.Data.List.Induction

/-!
# Conditions set one after the other

A list of conditions is put into slots, one for each type. Each slot then has the last turn of what
was given of its type (`sumsUp_ofList`), whatever was given of other types between. Main statements:
the types are in order of first appearance (`types_ofList`), two sets of different types can be
exchanged exactly if one of the types is there (`set_comm_iff`), and the slots are determined by the
list, type by type (`slots_sum_up_list`).
-/
namespace ApiCatalog.Conditions

open Memory (LastTurn)

/-- The types of the slots, in their order. -/
def types (cs : Conditions) : List String := cs.slots.map Condition.type

section Types

variable (cs : Conditions) (c : Condition)

theorem types_set :
    (cs.set c).types = if c.type ∈ cs.types then cs.types else cs.types ++ [c.type] := by
  unfold types set
  induction cs.slots with
  | nil => simp [put]
  | cons slot rest ih =>
    by_cases own : slot.type = c.type
    · simp [put_cons_of_eq own, own, Condition.after_type]
    · have same : c.type ∈ (slot :: rest).map Condition.type ↔ c.type ∈ rest.map Condition.type := by
        rw [List.map_cons, List.mem_cons, or_iff_right (Ne.symm own)]
      rw [put_cons_of_ne own, List.map_cons, ih]
      simp only [same]
      split <;> rfl

theorem ofList_concat (list : List Condition) : ofList (list ++ [c]) = (ofList list).set c :=
  List.foldl_concat ..

theorem eraseDups_concat (names : List String) (name : String) :
    (names ++ [name]).eraseDups =
      if name ∈ names then names.eraseDups else names.eraseDups ++ [name] := by
  have alone : [name].eraseDups = [name] := rfl
  rw [List.eraseDups_append]
  by_cases given : name ∈ names
  · simp [List.removeAll, given]
  · simp [List.removeAll, given, alone]

/-- Each type has its slot from when it is first given. -/
theorem types_ofList (list : List Condition) :
    (ofList list).types = (list.map Condition.type).eraseDups := by
  induction list using List.reverseRecOn with
  | nil => rfl
  | append_singleton list c ih =>
    rw [ofList_concat, types_set, ih, List.map_append, List.map_singleton, eraseDups_concat]
    simp only [List.mem_eraseDups]

end Types

section Turns

/-- Of what was given of a type, the latest first, its slot has the last turn. -/
def SumsUp (slots log : List Condition) : Prop :=
  log = [] ∧ slots = [] ∨ ∃ turn, LastTurn log turn ∧ slots = [turn]

theorem SumsUp.set {cs : Conditions} {c : Condition} {log : List Condition}
    (sums : SumsUp (cs.ofType c.type) log) : SumsUp ((cs.set c).ofType c.type) (c :: log) := by
  right
  rw [ofType_set_self]
  rcases sums with ⟨rfl, none⟩ | ⟨turn, last, one⟩
  · exact ⟨c, Memory.lastTurn_first c, by rw [none]⟩
  · rw [one]
    by_cases same : turn.state = c.state
    · exact ⟨turn, last.kept same.symm, congrArg ([·]) (Condition.after_eq_self_iff.2 same)⟩
    · exact ⟨c, last.turned (Ne.symm same), congrArg ([·]) (Condition.after_of_ne same)⟩

theorem sumsUp_ofList (list : List Condition) (type : String) :
    SumsUp ((ofList list).ofType type) (list.filter (·.type == type)).reverse := by
  induction list using List.reverseRecOn with
  | nil => exact .inl ⟨rfl, rfl⟩
  | append_singleton list c ih =>
    rw [ofList_concat, List.filter_append, List.reverse_append]
    by_cases own : c.type = type
    · subst own
      simpa using ih.set
    · rw [ofType_set_of_ne _ _ (Ne.symm own)]
      simpa [own] using ih

variable {list : List Condition} {slot : Condition}

/-- A slot is the only one of its type. -/
theorem ofType_of_mem (inside : slot ∈ (ofList list).slots) :
    (ofList list).ofType slot.type = [slot] ∧
      LastTurn (list.filter (·.type == slot.type)).reverse slot := by
  have own : slot ∈ (ofList list).ofType slot.type := List.mem_filter.2 ⟨inside, beq_self_eq_true _⟩
  rcases sumsUp_ofList list slot.type with ⟨-, none⟩ | ⟨turn, last, one⟩
  · rw [none] at own
    cases own
  · rw [one, List.mem_singleton] at own
    subst own
    exact ⟨one, last⟩

/-- The last turn of a list that is read in its order. -/
theorem exists_run_of_lastTurn {given : List Condition} {turn : Condition}
    (last : LastTurn given.reverse turn) :
    ∃ before later, given = before ++ turn :: later ∧ (∀ c ∈ later, c.state = turn.state) ∧
      ∀ c, before.getLast? = some c → c.state ≠ turn.state := by
  obtain ⟨since, before, split, equal, differs⟩ := last
  refine ⟨before.reverse, since.reverse, ?_, ?_, ?_⟩
  · rw [← given.reverse_reverse, split]
    simp
  · simpa using equal
  · simpa using differs

theorem exists_last_of_lastTurn {given : List Condition} {turn : Condition}
    (last : LastTurn given.reverse turn) : ∃ c, given.getLast? = some c ∧ turn.state = c.state := by
  obtain ⟨since, before, split, equal, -⟩ := last
  obtain ⟨c, latest⟩ := Memory.exists_latest since before turn
  refine ⟨c, ?_, (Memory.state_of_head? equal latest).symm⟩
  rw [← List.head?_reverse, split, latest]

end Turns

section Settled

variable {list : List Condition} {cs : Conditions} {c d : Condition}

/-- A slot that says the same is kept, whenever it is said again. -/
theorem set_ofList_eq_self_iff :
    (ofList list).set d = ofList list ↔ ∃ slot ∈ (ofList list).slots, slot.state = d.state := by
  have slots : (ofList list).set d = ofList list ↔
      put d (ofList list).slots = (ofList list).slots := by
    constructor
    · exact congrArg Conditions.slots
    · exact congrArg Conditions.mk
  rw [slots, put_eq_self_iff]
  constructor
  · rintro ⟨slot, found, same⟩
    exact ⟨slot, List.mem_of_find?_eq_some found, same⟩
  · rintro ⟨slot, inside, same⟩
    refine ⟨slot, ?_, same⟩
    rw [← Condition.type_eq_of_state same, ← List.head?_filter]
    exact congrArg List.head? (ofType_of_mem inside).1

theorem set_set (same : d.state = c.state) : (cs.set c).set d = cs.set c :=
  congrArg Conditions.mk (put_put same.symm cs.slots)

end Settled

section Exchange

variable {c d : Condition} {slots : List Condition}

/-- Slots that are there are changed in their places. -/
theorem put_comm (other : c.type ≠ d.type)
    (given : c.type ∈ slots.map Condition.type ∨ d.type ∈ slots.map Condition.type) :
    put d (put c slots) = put c (put d slots) := by
  induction slots with
  | nil => simp at given
  | cons slot rest ih =>
    by_cases first : slot.type = c.type
    · have second : slot.type ≠ d.type := first ▸ other
      rw [put_cons_of_eq first, put_cons_of_ne second, put_cons_of_eq first,
        put_cons_of_ne ((Condition.after_type c slot).trans_ne other)]
    · by_cases second : slot.type = d.type
      · rw [put_cons_of_ne first, put_cons_of_eq second, put_cons_of_eq second,
          put_cons_of_ne ((Condition.after_type d slot).trans_ne other.symm)]
      · have later : c.type ∈ rest.map Condition.type ∨ d.type ∈ rest.map Condition.type := by
          simpa [Ne.symm first, Ne.symm second] using given
        rw [put_cons_of_ne first, put_cons_of_ne second, put_cons_of_ne second,
          put_cons_of_ne first, ih later]

/-- New slots are in the order in which they were set. -/
theorem put_put_of_new (other : c.type ≠ d.type) (first : c.type ∉ slots.map Condition.type)
    (second : d.type ∉ slots.map Condition.type) : put d (put c slots) = slots ++ [c, d] := by
  have apart {e : Condition} (new : e.type ∉ slots.map Condition.type) :
      ∀ slot ∈ slots, slot.type ≠ e.type :=
    fun slot inside same => new (List.mem_map.2 ⟨slot, inside, same⟩)
  have placed := put_append (apart first) []
  rw [List.append_nil] at placed
  rw [placed, put_append (apart second)]
  exact congrArg (slots ++ ·) (put_cons_of_ne other [])

theorem set_comm_iff {cs : Conditions} (other : c.type ≠ d.type) :
    (cs.set c).set d = (cs.set d).set c ↔ c.type ∈ cs.types ∨ d.type ∈ cs.types := by
  constructor
  · intro same
    by_contra new
    obtain ⟨first, second⟩ := not_or.1 new
    have slots := congrArg Conditions.slots same
    change put d (put c cs.slots) = put c (put d cs.slots) at slots
    rw [put_put_of_new other first second, put_put_of_new other.symm second first] at slots
    simp only [List.append_cancel_left_eq, List.cons.injEq] at slots
    exact other (congrArg Condition.type slots.1)
  · intro given
    exact congrArg Conditions.mk (put_comm other given)

end Exchange

/-- A list gives one slot for each type in it, in order of first appearance. A slot says what the
last condition of its type says, at the time of the first one in the run of conditions that say this
and with which what was given of the type ends. To say again what a slot says changes nothing, at
whatever time, and nothing else does. Two conditions of different types can be set in either order
exactly if one of the types is there. -/
theorem slots_sum_up_list (list : List Condition) :
    (ofList list).types = (list.map Condition.type).eraseDups ∧
    (∀ slot ∈ (ofList list).slots,
      (∃ last, (list.filter (·.type == slot.type)).getLast? = some last ∧
        slot.state = last.state) ∧
      ∃ before first later, list.filter (·.type == slot.type) = before ++ first :: later ∧
        (∀ c ∈ later, c.state = first.state) ∧
        (∀ c, before.getLast? = some c → c.state ≠ first.state) ∧
        slot.lastTransition = first.lastTransition) ∧
    (∀ c d, d.state = c.state → ((ofList list).set c).set d = (ofList list).set c) ∧
    (∀ d, (ofList list).set d = ofList list ↔
      ∃ slot ∈ (ofList list).slots, slot.state = d.state) ∧
    ∀ c d, c.type ≠ d.type →
      (((ofList list).set c).set d = ((ofList list).set d).set c ↔
        c.type ∈ list.map Condition.type ∨ d.type ∈ list.map Condition.type) := by
  refine ⟨types_ofList list, fun slot inside => ?_, fun c d same => set_set same,
    fun d => set_ofList_eq_self_iff, fun c d other => ?_⟩
  · obtain ⟨-, turn⟩ := ofType_of_mem inside
    obtain ⟨before, later, split, equal, differs⟩ := exists_run_of_lastTurn turn
    exact ⟨exists_last_of_lastTurn turn, before, slot, later, split, equal, differs, rfl⟩
  · rw [set_comm_iff other, types_ofList, List.mem_eraseDups, List.mem_eraseDups]

namespace Sample

def paused (now : Instant) : Condition := .failing "Ready" .warning "Paused" "" now

def stated (now : Instant) : Condition := .holding "Synced" now

/-- The clock was put back before the last one. -/
def given : List Condition :=
  [.holding "Ready" Memory.Sample.eight, stated Memory.Sample.eight, paused Memory.Sample.ten,
    stated Memory.Sample.nine, paused Memory.Sample.nine]

end Sample

/-- What was given of either type ends in a run of two. The time is that of the first of them, also
where it is the later one. -/
theorem slots_sum_up_list_sample :
    (ofList Sample.given).types = ["Ready", "Synced"] ∧
      Sample.paused Memory.Sample.ten ∈ (ofList Sample.given).slots ∧
      (∃ before first later,
        Sample.given.filter (·.type == "Ready") = before ++ first :: later ∧
          (∀ c ∈ later, c.state = first.state) ∧
          Memory.Sample.ten = first.lastTransition) ∧
      (ofList Sample.given).set (Sample.paused Memory.Sample.eight) = ofList Sample.given ∧
      ((ofList Sample.given).set (.holding "Ready" Memory.Sample.eight)).set
          (Sample.stated Memory.Sample.ten) =
        ((ofList Sample.given).set (Sample.stated Memory.Sample.ten)).set
          (.holding "Ready" Memory.Sample.eight) := by
  have inside : Sample.paused Memory.Sample.ten ∈ (ofList Sample.given).slots := by decide +kernel
  obtain ⟨types, slots, -, settled, exchanged⟩ := slots_sum_up_list Sample.given
  obtain ⟨-, before, first, later, split, equal, -, time⟩ := slots _ inside
  refine ⟨types.trans (by decide +kernel), inside, ?_, ?_, ?_⟩
  · exact ⟨before, first, later, split, equal, time⟩
  · exact (settled _).2 ⟨_, inside, rfl⟩
  · exact (exchanged _ _ (by decide)).2 (.inl (by decide +kernel))

end ApiCatalog.Conditions
