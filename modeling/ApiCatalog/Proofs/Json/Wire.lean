import ApiCatalog.Json.Wire

/-!
# Lawful wire forms

A wire form is lawful if every value is read as what was written, and if what is written is plain: a
tree of texts and of integers that fit a machine word, with a known bound on how deep lists and
objects are nested. Main statements: a field that the writer leaves out has the value that the
reader puts in its place (`Fields.orElse_eq`), and an object whose members have different names is
read as a record (`Json.record?_object`).
-/
namespace ApiCatalog
namespace Json

/-- A value without fractions and larger integers, nested no deeper than `depth`. -/
inductive Plain : Nat → Json → Prop where
  | null {depth : Nat} : Plain depth .null
  | text {depth : Nat} (value : String) : Plain depth (.text value)
  | word {depth : Nat} (value : UInt64) : Plain depth (.integer value.toNat)
  | list {depth : Nat} {items : List Json} (each : ∀ item ∈ items, Plain depth item) :
      Plain (depth + 1) (.list items)
  | object {depth : Nat} {members : List (String × Json)}
      (each : ∀ m ∈ members, Plain depth m.2) : Plain (depth + 1) (.object members)

/-- The values of all members are plain. -/
def PlainMembers (depth : Nat) (members : List (String × Json)) : Prop :=
  ∀ m ∈ members, Plain depth m.2

namespace PlainMembers

variable {depth : Nat} {members others : List (String × Json)}

theorem nil : PlainMembers depth [] := fun _ inside => nomatch inside

theorem cons {name : String} {value : Json} (first : Plain depth value)
    (rest : PlainMembers depth members) : PlainMembers depth ((name, value) :: members) :=
  List.forall_mem_cons.2 ⟨first, rest⟩

theorem append (first : PlainMembers depth members) (rest : PlainMembers depth others) :
    PlainMembers depth (members ++ others) :=
  List.forall_mem_append.2 ⟨first, rest⟩

theorem object (plain : PlainMembers depth members) : Plain (depth + 1) (.object members) :=
  .object plain

end PlainMembers

section Members

variable {members others : List (String × Json)} {name : String}

@[simp] theorem member?_nil : member? [] name = none := rfl

@[simp] theorem member?_cons (m : String × Json) : member? (m :: members) name =
    if m.1 = name then some m.2 else member? members name := by
  by_cases same : m.1 = name <;> simp [member?, same]

@[simp] theorem member?_append :
    member? (members ++ others) name = (member? members name).or (member? others name) := by
  simp [member?, List.find?_append, Option.map_or]

/-- Members with different names are a record whatever its fields are. -/
theorem distinct?_eq {α : Type} {names : List String} {members : List (String × α)}
    (distinct : (members.map Prod.fst).Nodup) : distinct? names members = some members := by
  have once : ∀ name, members.countP (·.1 == name) ≤ 1 := by
    intro name
    have count := List.nodup_iff_count.1 distinct name
    rwa [List.count, List.countP_map] at count
  exact if_pos (List.all_eq_true.2 fun name _ => decide_eq_true (once name))

theorem record?_object {names : List String} (distinct : (members.map Prod.fst).Nodup) :
    record? names (.object members) = some members :=
  distinct?_eq distinct

end Members
end Json

/-- What is written is read as it was, however strictly, and nested no deeper than `height`. -/
class LawfulWire (α : Type) [Wire α] (height : outParam Nat) : Prop where
  decode_encode (strictness : Strictness) (a : α) : decode strictness (encode a) = some a
  plain (depth : Nat) (a : α) : Json.Plain (depth + height) (encode a)

export LawfulWire (decode_encode)

instance : LawfulWire String 0 := ⟨fun _ _ => rfl, fun _ s => .text s⟩

instance : LawfulWire UInt64 0 where
  decode_encode strictness n := by
    have word : n.toNat < UInt64.size := n.toNat_lt
    show (if n.toNat < UInt64.size then some (UInt64.ofNat n.toNat) else none) = some n
    rw [if_pos word, UInt64.ofNat_toNat]
  plain depth n := .word n

theorem mapM_map_eq_some {α β : Type} {f : β → Option α} {g : α → β} {list : List α}
    (inverse : ∀ a ∈ list, f (g a) = some a) : (list.map g).mapM f = some list := by
  induction list with
  | nil => rfl
  | cons a rest ih =>
    obtain ⟨here, others⟩ := List.forall_mem_cons.1 inverse
    simp [here, ih others]

instance {α : Type} {height : Nat} [Wire α] [LawfulWire α height] :
    LawfulWire (List α) (height + 1) where
  decode_encode strictness items := mapM_map_eq_some fun a _ => decode_encode strictness a
  plain depth items := .list fun item member => by
    obtain ⟨a, -, rfl⟩ := List.mem_map.1 member
    exact LawfulWire.plain depth a

/-- A text is never written as `null`. -/
instance : LawfulWire (Option String) 0 where
  decode_encode
    | _, none => rfl
    | _, some _ => rfl
  plain
    | _, none => .null
    | _, some s => .text s

namespace Fields

variable {α : Type} [Wire α] {name : String} {value absent : α} {omitted : Bool}

@[simp] theorem emit_true : emit name value true = [] := rfl

@[simp] theorem emit_false : emit name value false = [(name, encode value)] := rfl

@[simp] theorem member?_emit {other : String} : Json.member? (emit name value omitted) other =
    if name = other then if omitted then none else some (encode value) else none := by
  cases omitted <;> simp

theorem names_emit : ((emit name value omitted).map Prod.fst).Sublist [name] := by
  cases omitted <;> simp

theorem plain_emit {depth : Nat} (plain : Json.Plain depth (encode value)) :
    Json.PlainMembers depth (emit name value omitted) := by
  cases omitted with
  | true => exact .nil
  | false => exact .cons plain .nil

section Lawful

variable {strictness : Strictness} {fields : Fields}

theorem required_eq {height : Nat} [LawfulWire α height]
    (given : Json.member? fields name = some (encode value)) :
    required strictness fields name = some value := by
  rw [required, given]
  exact decode_encode strictness value

/-- A field that is left out only if it has the value of an absent one. -/
theorem orElse_eq {height : Nat} [LawfulWire α height] (omitted : Bool)
    (given : Json.member? fields name = if omitted then none else some (encode value))
    (left_out : omitted = true → value = absent) :
    orElse strictness fields name absent = some value := by
  rw [orElse, given]
  cases omitted with
  | true => simp [left_out rfl]
  | false => exact decode_encode strictness value

end Lawful
end Fields
end ApiCatalog
