import ApiCatalog.Proofs.Client.Accounts

/-!
# Bindings of one reference

A client that binds an entry looks once at the bindings that there are, and compares the references
of the entry with these. It does not compare them with each other. Main statement: a reference that
has a binding gets no other one, and a client that ends well keeps to one binding for each reference
exactly if the entry names no other reference twice (`bound_once_iff`). So it can create two
bindings of one reference (`repeated_reference_bound_twice`).
-/
namespace ApiCatalog
namespace Memory

/-- How many bindings of the partition have the reference. -/
def held (s : Memory) (partition : Partition) (r : ExportReference) : Nat :=
  (s.listBindings partition).countP (·.reference == r)

/-- The keys of all bindings, with their references. -/
def references (s : Memory) : List (ObjectKey × ExportReference) :=
  s.bindings.rows.map fun row => (row.1, row.2.reference)

section Held

variable {s : Memory} {partition : Partition} {r : ExportReference}

theorem held_eq_countP (s : Memory) (partition : Partition) (r : ExportReference) :
    s.held partition r =
      s.references.countP fun pair => pair.2 == r && pair.1.partition == partition := by
  simp only [held, references, listBindings, Table.values, Table.filter, List.countP_map,
    List.countP_filter, Function.comp_def]

theorem mem_references_iff {key : ObjectKey} :
    (key, r) ∈ s.references ↔ ∃ b, s.bindings.get? key = some b ∧ b.reference = r := by
  simp only [references, List.mem_map, Prod.exists, Prod.mk.injEq, ← Table.mem_rows_iff]
  exact ⟨fun ⟨_, b, stored, same, own⟩ => ⟨b, same ▸ stored, own⟩,
    fun ⟨b, stored, own⟩ => ⟨key, b, stored, rfl, own⟩⟩

theorem nodup_references (s : Memory) : s.references.Nodup := by
  refine .of_map Prod.fst ?_
  rw [references, List.map_map]
  exact s.bindings.nodup_keys

/-- A search among the bindings finds nothing exactly if none has the reference. -/
theorem known_eq_none_iff :
    Binding.known (s.listBindings partition) r = none ↔ s.held partition r = 0 := by
  simp only [Binding.known, Option.map_eq_none_iff, List.find?_eq_none, held, List.countP_eq_zero]

end Held
end Memory

namespace Client.Surroundings

variable {δ : Type} {z : Surroundings δ} {s s' : Memory} {made : List (Partition × ApiBinding)}

/-- What is added comes to the keys and references that were there. -/
theorem Adds.references (adds : z.Adds made s s') : s'.references.Perm
    (s.references ++ made.map fun pair => (Stored.key pair.1 pair.2, pair.2.reference)) := by
  have fresh : (made.map fun pair => (Stored.key pair.1 pair.2, pair.2.reference)).Nodup := by
    refine .of_map Prod.fst ?_
    rw [List.map_map]
    exact adds.apart
  have all : (s.references ++ made.map fun pair =>
      (Stored.key pair.1 pair.2, pair.2.reference)).Nodup := by
    refine List.nodup_append.2 ⟨s.nodup_references, fresh, ?_⟩
    rintro ⟨key, r⟩ old ⟨_, _⟩ new same
    cases same
    obtain ⟨pair, member, same⟩ := List.mem_map.1 new
    cases same
    obtain ⟨b, found, -⟩ := Memory.mem_references_iff.1 old
    cases (adds.free pair member).symm.trans found
  have later {key : ObjectKey} {b : ApiBinding}
      (lasts : ∃ b', s'.bindings.get? key = some b' ∧ z.Kept key b b') {r : ExportReference} :
      (key, r) ∈ s'.references ↔ b.reference = r := by
    obtain ⟨b', there, kept⟩ := lasts
    rw [Memory.mem_references_iff, there, kept.still]
    simp
  refine (List.perm_ext_iff_of_nodup s'.nodup_references all).2 fun ⟨key, r⟩ => ?_
  rw [List.mem_append, List.mem_map]
  constructor
  · intro still
    cases found : s.bindings.get? key with
    | some b =>
      exact .inl (Memory.mem_references_iff.2 ⟨b, found, (later (adds.kept found)).1 still⟩)
    | none =>
      by_cases added : ∃ pair ∈ made, Stored.key pair.1 pair.2 = key
      · obtain ⟨pair, member, rfl⟩ := added
        exact .inr ⟨pair, member, congrArg (_, ·) ((later (adds.there pair member)).1 still)⟩
      · obtain ⟨b, there, -⟩ := Memory.mem_references_iff.1 still
        cases (adds.others found fun pair member same => added ⟨pair, member, same⟩).symm.trans
          there
  · rintro (old | ⟨pair, member, same⟩)
    · obtain ⟨b, found, own⟩ := Memory.mem_references_iff.1 old
      exact (later (adds.kept found)).2 own
    · cases same
      exact (later (adds.there pair member)).2 rfl

/-- Of a reference there are as many bindings more as have been added. -/
theorem Adds.held (adds : z.Adds made s s') (target : Partition) (r : ExportReference) :
    s'.held target r =
      s.held target r + made.countP fun pair => pair.2.reference == r && pair.1 == target := by
  rw [Memory.held_eq_countP, adds.references.countP_eq, List.countP_append, List.countP_map,
    Memory.held_eq_countP]
  simp only [Function.comp_def, LawfulStored.key_partition]

end Client.Surroundings

namespace Binding

open Client

section Counts

variable {target : Partition} {references : List ExportReference} {asked : List Creation}

/-- A binding is asked for whenever a complete reference is met that is not known. None of the
references is compared with another one. -/
theorem countP_asked {known : ExportReference → Option String} {accounts : List Account}
    (settles : Settles target known references asked accounts) (r : ExportReference) :
    asked.countP (·.wanted.reference == r) =
      if known r = none then (references.filter (·.isComplete)).count r else 0 := by
  have own (reference : ExportReference) :
      (ApiBinding.forReference reference).reference = reference := rfl
  induction settles with
  | none => simp
  | skipped incomplete rest ih => rw [List.filter_cons_of_neg incomplete, ih]
  | @reused reference _ _ _ name complete found rest ih =>
    rw [List.filter_cons_of_pos complete, List.count_cons, ih]
    by_cases same : reference = r
    · subst same
      simp [found]
    · simp [same]
  | @created reference _ _ _ _ complete unknown rest ih
  | @failed reference _ _ _ _ complete unknown rest ih =>
    rw [List.filter_cons_of_pos complete, List.countP_cons, List.count_cons, own, ih]
    by_cases same : reference = r
    · subst same
      simp [unknown]
    · simp [same]

/-- How many bindings of the reference were created. -/
def madeOf (noted : List Note) (target : Partition) (r : ExportReference) : Nat :=
  (made noted).countP fun pair => pair.2.reference == r && pair.1 == target

section Made

variable {noted : List Note} (all : creations noted = asked)
variable (own : ∀ c ∈ asked, ∀ made, c.answer = .ok made → made.reference = c.wanted.reference)
variable (r : ExportReference)

include all own

/-- Not more bindings of a reference are created than are asked for. -/
theorem madeOf_le : madeOf noted target r ≤ asked.countP (·.wanted.reference == r) := by
  rw [madeOf, made, all, List.countP_filterMap]
  refine List.countP_mono_left fun c member holds => ?_
  obtain ⟨partition, wanted, _ | made⟩ := c
  · cases holds
  · have given : made.reference = wanted.reference := own _ member made rfl
    simp [Creation.made?, given] at holds ⊢
    exact holds.1

/-- Where no creation fails all of them are. -/
theorem madeOf_eq (here : ∀ c ∈ asked, c.partition = target)
    (answered : ∀ c ∈ asked, ∃ made, c.answer = .ok made) :
    madeOf noted target r = asked.countP (·.wanted.reference == r) := by
  rw [madeOf, made, all, List.countP_filterMap]
  refine List.countP_congr fun c member => ?_
  obtain ⟨created, answer⟩ := answered c member
  simp [Creation.made?, answer, own c member created answer, here c member]

end Made
end Counts

section Runs

variable {δ : Type} {z : Surroundings δ} {o : Options}

/-- The creations of a run are made for references of the entry, in their order, after a listing of
the bindings. -/
theorem Course.asks {noted : List Note} {result : Except Halt Report}
    (course : Course o noted result) :
    creations noted = [] ∨ ∃ partition name entry listing front asked accounts rest,
      o.validate = .ok (partition, name) ∧
      noted = listedNotes partition name entry o.target listing asked rest ∧
      creations noted = asked ∧ front <+: entry.exports ∧
      Settles o.target (known (given listing)) front asked accounts := by
  cases course with
  | invalid invalid => exact .inl rfl
  | missing valid e => exact .inl rfl
  | unsaid valid entry reason => exact .inl rfl
  | interrupted valid begins settles reason =>
    have late : ∀ note ∈ [Note.refused reason], Late note := List.forall_mem_singleton.2 trivial
    exact .inr ⟨_, _, _, _, _, _, _, _, valid, rfl, creations_listedNotes late, begins, settles⟩
  | settled valid settles ends =>
    exact .inr ⟨_, _, _, _, _, _, _, _, valid, rfl, creations_listedNotes ends.late,
      List.prefix_rfl, settles⟩

/-- The complete references of the entry that is to be bound. -/
def wanted (s : Memory) (o : Options) : List ExportReference :=
  match o.validate with
  | .error _ => []
  | .ok (partition, name) =>
    match s.getEntry partition name with
    | .error _ => []
    | .ok entry => entry.exports.filter (·.isComplete)

theorem wanted_eq {s : Memory} {partition : Partition} {name : String} {entry : CatalogEntry}
    (valid : o.validate = .ok (partition, name)) (found : s.getEntry partition name = .ok entry) :
    wanted s o = entry.exports.filter (·.isComplete) := by
  simp only [wanted, valid, found]

section Creations

variable {s : Memory} {front : List ExportReference} {asked : List Creation}
variable {accounts : List Account} {log : List Deed} {w w' : Premises δ}

/-- A reference that has bindings is known when these are listed, whatever others have moved. -/
theorem countP_listed {t : Memory} (adds : z.Adds [] s t)
    (settles : Settles o.target (known (t.listBindings o.target)) front asked accounts)
    (r : ExportReference) : asked.countP (·.wanted.reference == r) =
      if s.held o.target r = 0 then (front.filter (·.isComplete)).count r else 0 := by
  have same : t.held o.target r = s.held o.target r := adds.held o.target r
  rw [countP_asked settles, ← same]
  simp only [Memory.known_eq_none_iff]

theorem reference_made {known : ExportReference → Option String}
    (settles : Settles o.target known front asked accounts)
    (follows : Program.Follows z.serve w log w') (all : creations (notes log) = asked) :
    ∀ c ∈ asked, ∀ made, c.answer = .ok made → made.reference = c.wanted.reference := by
  intro c asks made created
  obtain ⟨-, r, -, wanted⟩ := settles.wanted c asks
  rw [(creation_given follows (all ▸ asks) wanted created).1, wanted]
  rfl

variable {d : δ} {n : Nat} (follows : Program.Follows z.serve ⟨s, d, n⟩ log w')
include follows

/-- Where no call is refused, no binding is created but for complete references of the entry that
have none, and not more than they are named. -/
theorem madeOf_le_wanted (accepts : ∀ n, (z.around n).refusal = none)
    {result : Except Halt Report} (course : Course o (notes log) result) (r : ExportReference) :
    madeOf (notes log) o.target r ≤
      if s.held o.target r = 0 then (wanted s o).count r else 0 := by
  obtain none | ⟨partition, name, entry, listing, front, asked, accounts, rest, valid, noted, all,
    begins, settles⟩ := course.asks
  · rw [madeOf, made, none]
    exact Nat.zero_le _
  obtain ⟨found, ⟨n, e, refusal, -⟩ | ⟨t, adds, rfl⟩⟩ := listing_served follows noted
  · cases (accepts n).symm.trans refusal
  refine (madeOf_le all (reference_made settles follows all) r).trans ?_
  rw [countP_listed adds settles, wanted_eq valid found]
  split
  · exact (begins.filter _).sublist.count_le r
  · exact le_rfl

/-- A run that ends well creates all of these. -/
theorem madeOf_eq_wanted {report : Report} (course : Course o (notes log) (.ok report))
    (r : ExportReference) : madeOf (notes log) o.target r =
      if s.held o.target r = 0 then (wanted s o).count r else 0 := by
  obtain ⟨partition, name, entry, existing, asked, accounts, coda, valid, noted, settles, late,
    answered, -⟩ := course.of_ok
  have all : creations (notes log) = asked := by rw [noted, creations_listedNotes late]
  obtain ⟨found, ⟨n, e, -, failed⟩ | ⟨t, adds, listed⟩⟩ := listing_served follows noted
  · cases failed
  cases listed
  rw [madeOf_eq all (reference_made settles follows all) r
    (fun c asks => (settles.wanted c asks).1) answered, countP_listed adds settles,
    wanted_eq valid found]

end Creations

/-- Where no call is refused a reference that has bindings in the target gets no other one, however
the run ends, and one that the entry names once has at most one then. But of a reference that has
none and is named several times each mention is bound, so that a run which ends well keeps to one
binding for each reference exactly if no such reference is named twice. -/
theorem bound_once_iff (z : Surroundings δ) (s : Memory) (d : δ) (patience : Nat) (o : Options) :
    let w : Premises δ := ⟨s, d, 0⟩
    let s' := (after z.serve (run patience o) w).store
    ((∀ n, (z.around n).refusal = none) →
      (∀ r, 0 < s.held o.target r → s'.held o.target r = s.held o.target r) ∧
      ∀ r, (wanted s o).count r ≤ 1 → s'.held o.target r ≤ max 1 (s.held o.target r)) ∧
    ∀ report, outcome z.serve (run patience o) w = .ok report →
      (∀ r, s'.held o.target r =
        s.held o.target r + if s.held o.target r = 0 then (wanted s o).count r else 0) ∧
      ((∀ r, s'.held o.target r ≤ max 1 (s.held o.target r)) ↔
        ∀ r, s.held o.target r = 0 → (wanted s o).count r ≤ 1) := by
  intro w s'
  have follows : Program.Follows z.serve w _ _ := follows_record z.serve (run patience o) w
  have course : Course o _ _ := course_run (ends_record z.serve (run patience o) w)
  have held (r : ExportReference) : s'.held o.target r = s.held o.target r +
      madeOf (notes (record z.serve (run patience o) w)) o.target r :=
    (Surroundings.adds_run z follows course.calls).held o.target r
  refine ⟨fun accepts => ⟨fun r bound => ?_, fun r once => ?_⟩, fun report ended => ?_⟩
  · have most := madeOf_le_wanted follows accepts course r
    rw [if_neg (by omega)] at most
    rw [held, Nat.le_zero.1 most, Nat.add_zero]
  · have most := madeOf_le_wanted follows accepts course r
    rw [held]
    split at most <;> omega
  · rw [ended] at course
    have all (r : ExportReference) : s'.held o.target r =
        s.held o.target r + if s.held o.target r = 0 then (wanted s o).count r else 0 := by
      rw [held, madeOf_eq_wanted follows course]
    refine ⟨all, forall_congr' fun r => ?_⟩
    rw [all r]
    by_cases unbound : s.held o.target r = 0
    · simp [unbound]
    · simp [unbound]

namespace Sample

/-- Nobody comes in between, and no end of a name is made up twice. -/
def calm : Surroundings Unit where
  backing := .memory
  around n := ⟨[], toString n, .ok (), .zero, none⟩

end Sample

open Sample

/-- Each reference is named once. That of the binding is reused, and the other one gets its own. -/
theorem bound_once_sample :
    let s' := (after calm.serve (run 1 options) (premises [certs, dns])).store
    (outcome calm.serve (run 1 options) (premises [certs, dns])).toOption =
        some ⟨["dns-3"], ["certs"], []⟩ ∧
      s'.held .root certs = 1 ∧ s'.held .root dns = 1 := by
  intro s'
  obtain ⟨most, exact⟩ := bound_once_iff calm (store [certs, dns]) () 1 options
  have same := (most fun _ => rfl).1
  have reported : (outcome calm.serve (run 1 options) (premises [certs, dns])).toOption =
      some ⟨["dns-3"], ["certs"], []⟩ := by decide +kernel
  refine ⟨reported, (same certs (by decide +kernel)).trans (by decide +kernel), ?_⟩
  cases ended : outcome calm.serve (run 1 options) (premises [certs, dns]) with
  | error h =>
    rw [ended] at reported
    cases reported
  | ok report => exact ((exact report ended).1 dns).trans (by decide +kernel)

/-- The entry names one reference twice, and the run creates two bindings of it. -/
theorem repeated_reference_bound_twice :
    (outcome calm.serve (run 1 options) (premises [dns, dns])).toOption =
        some ⟨["dns-2", "dns-3"], [], []⟩ ∧
      (store [dns, dns]).held .root dns = 0 ∧
      (after calm.serve (run 1 options) (premises [dns, dns])).store.held .root dns = 2 := by
  decide +kernel

end Runs

end Binding
end ApiCatalog
